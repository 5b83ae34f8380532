import Scriptlet.Console.Continuation
import Scriptlet.Proofs.Depth
import Scriptlet.Proofs.Layout

/-!
# Brackets come in pairs

The enter key decides by counting: an entry with more opening than closing brackets is not
handed in. The grammar does not count. It asks for a closing bracket wherever it has consumed
an opening one, each rule for its own. That the two do not contradict each other, so that an
entry that already is a program is never held back, is shown here.

What a reader consumes is what stands between the tokens that it is given and those that it
leaves, and it *shifts* the brackets by how many more of it open than close. Every rule of the
grammar shifts them by nothing. In between, behind an opening bracket, the brackets are shifted
by one, so that the laws for putting readers together carry along what is still to be shifted.

Counting is up to the end of the text. Behind that there is nothing in the tokens of a text, and
in other lists of tokens the reader does not look there.
-/

namespace Scriptlet

open Reader Console

/-- Tokens **come to an end** if the end of the text is among them. -/
def HasEnd (tokens : List Token) : Prop :=
  ∃ t ∈ tokens, t.kind = .endOfText

/-- The tokens **before the end** of the text. -/
def beforeEnd (tokens : List Token) : List Token :=
  tokens.takeWhile (·.kind != .endOfText)

theorem beforeEnd_of_ended {tokens : List Token} (ended : (head tokens).kind = .endOfText) :
    beforeEnd tokens = [] := by
  cases tokens with
  | nil => rfl
  | cons t rest => exact List.takeWhile_cons_of_neg (by simpa [head] using ended)

theorem beforeEnd_cons {t : Token} (more : t.kind ≠ .endOfText) (rest : List Token) :
    beforeEnd (t :: rest) = t :: beforeEnd rest :=
  List.takeWhile_cons_of_pos (by simp [more])

theorem hasEnd_of_ended {tokens : List Token} (some : tokens ≠ [])
    (ended : (head tokens).kind = .endOfText) : HasEnd tokens := by
  obtain ⟨t, rest, rfl⟩ := List.exists_cons_of_ne_nil some
  exact ⟨t, List.mem_cons_self, ended⟩

theorem hasEnd_cons {t : Token} (more : t.kind ≠ .endOfText) {rest : List Token} :
    HasEnd (t :: rest) ↔ HasEnd rest := by
  simp [HasEnd, more]

/-! ## Kinds that are no brackets -/

/-- A kind is **flat** if its tokens neither open nor close a bracket nor end the text. -/
def TokenKind.IsFlat (kind : TokenKind) : Prop :=
  bracketChange kind = 0 ∧ kind ≠ .endOfText

instance (kind : TokenKind) : Decidable kind.IsFlat :=
  inferInstanceAs (Decidable (_ ∧ _))

theorem isFlat_of_isWord {t : Token} (word : t.kind.isWord = true) : t.kind.IsFlat := by
  generalize t.kind = kind at word ⊢
  cases kind <;> first | exact by decide | cases word

theorem isFlat_of_isPrefixOperator {t : Token} (h : isPrefixOperator t = true) : t.kind.IsFlat := by
  unfold isPrefixOperator at h
  cases kind : t.kind <;> first | exact by decide | (rw [kind] at h; cases h)

theorem isFlat_of_precedence? {t : Token} {precedence : Nat} (h : precedence? t = some precedence) :
    t.kind.IsFlat := by
  unfold precedence? at h
  cases kind : t.kind <;> first | exact by decide | (rw [kind] at h; cases h)

theorem isFlat_of_step {t : Token} (step : (t.kind == .increment || t.kind == .decrement) = true) :
    t.kind.IsFlat := by
  rcases Bool.or_eq_true_iff.mp step with found | found <;> rw [beq_iff_eq.mp found] <;> decide

theorem isFlat_of_literal {kind : TokenKind} {label : Label} (h : literalLabel? kind = some label) :
    kind.IsFlat := by
  cases kind <;> first | exact by decide | cases h

/-! ## Shifting the brackets -/

/-- Some tokens **lead to** others, with a shift of the brackets in between. -/
structure Leads (shift : Int) (tokens rest : List Token) : Prop where
  /-- Something is left of something. -/
  some : tokens ≠ [] → rest ≠ []
  /-- The end of the text is not passed. -/
  ends : HasEnd tokens ↔ HasEnd rest
  /-- What is shifted is what the balances before the end differ by. -/
  balance : HasEnd tokens →
    bracketBalance (beforeEnd tokens) = shift + bracketBalance (beforeEnd rest)

theorem Leads.refl (tokens : List Token) : Leads 0 tokens tokens :=
  ⟨id, Iff.rfl, fun _ => (Int.zero_add _).symm⟩

theorem Leads.trans {m n : Int} {tokens between rest : List Token} (first : Leads m tokens between)
    (second : Leads n between rest) : Leads (m + n) tokens rest where
  some h := second.some (first.some h)
  ends := first.ends.trans second.ends
  balance h := by
    rw [first.balance h, second.balance (first.ends.mp h), Int.add_assoc]

namespace Reader

/-- A reader **shifts the brackets** of some tokens by so many, unless it fails. -/
def Shifts (tokens : List Token) (shift : Int) (reader : Reader α) : Prop :=
  ∀ a rest, reader tokens = .ok (a, rest) → Leads shift tokens rest

namespace Shifts

variable {tokens : List Token} {shift : Int} {reader : Reader α} {kind : TokenKind}

theorem pure {a : α} : Shifts tokens 0 (Pure.pure a : Reader α) := by
  intro b rest hrun
  cases hrun
  exact .refl tokens

theorem throw {e : SyntaxError} : Shifts tokens shift (MonadExcept.throw e : Reader α) :=
  nofun

/-- **One reader after another.** The shifts add up. -/
theorem bind_add {m n : Int} {next : α → Reader β} (first : reader.Shifts tokens m)
    (second : ∀ a rest, (next a).Shifts rest n) : Shifts tokens (m + n) (reader >>= next) := by
  intro b rest hrun
  obtain ⟨⟨a, between⟩, hfirst, hsecond⟩ := Except.of_bind_eq_ok hrun
  exact (first a between hfirst).trans (second a between b rest hsecond)

/-- After a reader that shifts nothing, everything is still to be shifted. -/
theorem bind {next : α → Reader β} (first : reader.Shifts tokens 0)
    (second : ∀ a rest, (next a).Shifts rest shift) : Shifts tokens shift (reader >>= next) :=
  Int.zero_add shift ▸ bind_add first second

theorem map {f : α → β} (h : reader.Shifts tokens shift) : Shifts tokens shift (f <$> reader) := by
  rw [map_eq_pure_bind, ← Int.add_zero shift]
  exact h.bind_add fun _ _ => .pure

theorem ite {c : Prop} [Decidable c] {other : Reader α} (yes : c → reader.Shifts tokens shift)
    (no : ¬ c → other.Shifts tokens shift) :
    Shifts tokens shift (if c then reader else other) := by
  split
  · exact yes ‹_›
  · exact no ‹_›

/-! ### Looking at tokens and consuming them -/

theorem current_bind {next : Token → Reader β} (h : (next (head tokens)).Shifts tokens shift) :
    Shifts tokens shift (current >>= next) :=
  h

theorem check_bind {next : Bool → Reader β}
    (h : (next ((head tokens).kind == kind)).Shifts tokens shift) :
    Shifts tokens shift (check kind >>= next) :=
  h

theorem check : Shifts tokens 0 (check kind) :=
  pure (a := (head tokens).kind == kind)

theorem checkStep_bind {next : Bool → Reader β}
    (h : (next ((head tokens).kind == .increment || (head tokens).kind == .decrement)).Shifts
      tokens shift) :
    Shifts tokens shift (checkStep >>= next) :=
  h

theorem room_bind {next : Nat → Reader β} (h : ∀ n, (next n).Shifts tokens shift) :
    Shifts tokens shift (room >>= next) :=
  h _

/-- Consuming a token shifts the brackets by what it opens or closes. Where there is one token
only, it stays, but then no end of the text has been promised. -/
theorem advance (more : (head tokens).kind ≠ .endOfText) :
    Shifts tokens (bracketChange (head tokens).kind) Reader.advance := by
  intro a rest hrun
  match tokens, hrun with
  | [], hrun => exact absurd rfl more
  | [t], hrun =>
    cases hrun
    have endless : ¬ HasEnd [t] := by simpa [HasEnd, head] using more
    exact ⟨id, Iff.rfl, fun ends => absurd ends endless⟩
  | t :: u :: rest, hrun =>
    cases hrun
    refine ⟨fun _ => List.cons_ne_nil _ _, hasEnd_cons more, fun _ => ?_⟩
    rw [beforeEnd_cons (t := a) more, bracketBalance_cons]
    rfl

/-- Behind a token that is no bracket there is still everything to shift. -/
theorem advance_bind {next : Token → Reader β} (flat : (head tokens).kind.IsFlat)
    (h : ∀ t rest, (next t).Shifts rest shift) : Shifts tokens shift (Reader.advance >>= next) :=
  bind (flat.1 ▸ advance flat.2) h

/-- Behind an opening bracket there is a closing one to come. -/
theorem advance_open_bind {next : Token → Reader β} (opens : bracketChange (head tokens).kind = 1)
    (h : ∀ t rest, (next t).Shifts rest (-1)) : Shifts tokens 0 (Reader.advance >>= next) :=
  bind_add (opens ▸ advance fun ended => by rw [ended] at opens; cases opens) h

theorem fail {cause : ParseCause} {t : Token} : Shifts tokens shift (Reader.fail cause t : Reader α) :=
  throw

theorem unexpected : Shifts tokens shift (Reader.unexpected : Reader α) :=
  current_bind fail

theorem tooDeep : Shifts tokens shift (Reader.tooDeep : Reader α) :=
  throw

theorem expect (more : kind ≠ .endOfText) :
    Shifts tokens (bracketChange kind) (Reader.expect kind) := by
  refine check_bind (ite (fun found => ?_) fun _ => unexpected)
  rw [← beq_iff_eq.mp found]
  exact advance (more_of_found found more)

theorem expect_bind {next : Token → Reader β} (flat : kind.IsFlat)
    (h : ∀ t rest, (next t).Shifts rest shift) : Shifts tokens shift (Reader.expect kind >>= next) :=
  bind (flat.1 ▸ expect flat.2) h

theorem expect_open_bind {next : Token → Reader β} (opens : bracketChange kind = 1)
    (h : ∀ t rest, (next t).Shifts rest (-1)) : Shifts tokens 0 (Reader.expect kind >>= next) :=
  bind_add (opens ▸ expect fun ended => by rw [ended] at opens; cases opens) h

theorem expect_close_bind {next : Token → Reader β} (closes : bracketChange kind = -1)
    (h : ∀ t rest, (next t).Shifts rest 0) : Shifts tokens (-1) (Reader.expect kind >>= next) :=
  bind_add (closes ▸ expect fun ended => by rw [ended] at closes; cases closes) h

/-- A construct that **ends with a closing bracket**. -/
theorem expect_close_pure {f : Token → β} (closes : bracketChange kind = -1) :
    Shifts tokens (-1) (Reader.expect kind >>= fun t => Pure.pure (f t)) :=
  expect_close_bind closes fun _ _ => pure

theorem run_accept_bind {next : Bool → Reader β} :
    (accept kind >>= next) tokens = (if (head tokens).kind == kind then
      Reader.advance >>= fun _ => next true else next false) tokens := by
  show ((if (head tokens).kind == kind then _ else _ : Reader Bool) >>= next) tokens = _
  split
  · rw [bind_assoc]
    rfl
  · rfl

theorem accept_bind {next : Bool → Reader β} (flat : kind.IsFlat)
    (h : ∀ b rest, (next b).Shifts rest shift) : Shifts tokens shift (accept kind >>= next) := by
  unfold Shifts
  rw [run_accept_bind]
  refine ite (fun found => ?_) fun _ => h false tokens
  exact advance_bind (by rwa [beq_iff_eq.mp found]) fun _ => h true

theorem accept_open_bind {next : Bool → Reader β} (opens : bracketChange kind = 1)
    (yes : ∀ rest, (next true).Shifts rest (-1)) (no : (next false).Shifts tokens 0) :
    Shifts tokens 0 (accept kind >>= next) := by
  unfold Shifts
  rw [run_accept_bind]
  refine ite (fun found => ?_) fun _ => no
  exact advance_open_bind (by rwa [beq_iff_eq.mp found]) fun _ => yes

/-! ### Lists -/

theorem manyUntil {stop : Reader Bool} {item : Reader α} {n : Nat}
    (hstop : ∀ tokens, stop.Shifts tokens 0) (h : ∀ tokens, item.Shifts tokens 0) :
    Shifts tokens 0 (manyUntil stop item n) := by
  induction n generalizing tokens with
  | zero => exact tooDeep
  | succ n ih =>
    exact (hstop tokens).bind fun _ rest => ite (fun _ => pure) fun _ =>
      (h rest).bind fun _ _ => ih.bind fun _ _ => pure

theorem commaList {close : TokenKind} {item : Reader α} {n : Nat}
    (h : ∀ tokens, item.Shifts tokens 0) : Shifts tokens 0 (commaList close item n) := by
  induction n generalizing tokens with
  | zero => exact tooDeep
  | succ n ih =>
    refine check_bind (ite (fun _ => pure) fun _ => (h tokens).bind fun _ _ => ?_)
    exact accept_bind (by decide) fun _ _ => ite (fun _ => ih.bind fun _ _ => pure) fun _ => pure

theorem commaSeparated {item : Reader α} {n : Nat} (h : ∀ tokens, item.Shifts tokens 0) :
    Shifts tokens 0 (commaSeparated item n) := by
  induction n generalizing tokens with
  | zero => exact tooDeep
  | succ n ih =>
    refine (h tokens).bind fun _ _ => ?_
    exact accept_bind (by decide) fun _ _ => ite (fun _ => ih.bind fun _ _ => pure) fun _ => pure

theorem separator {close : TokenKind} : Shifts tokens 0 (Reader.separator close) :=
  check_bind (ite (fun _ => pure) fun _ => expect_bind (by decide) fun _ _ => pure)

end Shifts

end Reader

/-! ## The grammar -/

/-- Rules are **balanced** if each, where it is readable, shifts the brackets by nothing. -/
def Rules.Balanced (rules : Rules) : Prop :=
  ∀ rule tokens, rule.IsReadable tokens → (rules rule).Shifts tokens 0

section Rules

variable {rules : Rules} {tokens : List Token} {t start : Token}

theorem readParams_balanced : readParams.Shifts tokens 0 := by
  have readName (inner : List Token) :
      (Node.ofToken .identifier <$> Reader.expect .identifier).Shifts inner 0 :=
    .map (.expect (by decide))
  refine .expect_open_bind (by decide) fun _ _ => .room_bind fun _ => ?_
  exact (Shifts.commaList readName).bind fun _ _ => .expect_close_pure (by decide)

variable (h : rules.Balanced)
include h

theorem Rules.Balanced.expression (tokens : List Token) : (rules .expression).Shifts tokens 0 :=
  h .expression tokens trivial

theorem Rules.Balanced.statement (tokens : List Token) : (rules .statement).Shifts tokens 0 :=
  h .statement tokens trivial

theorem readTemplateParts_balanced {chunks : List Text} {expressions : List (Text × Nat)} :
    (readTemplateParts rules t chunks expressions).Shifts tokens 0 := by
  induction chunks generalizing expressions tokens with
  | nil => exact .pure
  | cons chunk chunks ih =>
    unfold readTemplateParts
    cases expressions with
    | nil => exact ih.bind fun _ _ => .pure
    | cons e expressions =>
      exact (h (.fragment _ _) tokens trivial).bind fun _ _ => ih.bind fun _ _ => .pure

theorem readTemplate_balanced : (readTemplate rules t).Shifts tokens 0 := by
  unfold readTemplate
  split
  · exact .throw
  · exact (readTemplateParts_balanced h).bind fun _ _ => .pure

/-! ### Functions -/

theorem readBlock_balanced : (readBlock rules).Shifts tokens 0 := by
  refine .expect_open_bind (by decide) fun _ _ => .room_bind fun _ => ?_
  refine (Shifts.manyUntil (fun _ => ?_) h.statement).bind fun _ _ => .expect_close_pure (by decide)
  exact .check_bind (.ite (fun _ => .unexpected) fun _ => .check)

theorem readFunction_balanced (word : (head tokens).kind = .functionWord) :
    (readFunction rules).Shifts tokens 0 := by
  refine .advance_bind (by rw [word]; decide) fun _ rest => ?_
  have name : readName?.Shifts rest 0 := by
    refine .check_bind (.ite (fun found => Shifts.map ?_) fun _ => .pure)
    rw [show (0 : Int) = bracketChange (head rest).kind by rw [beq_iff_eq.mp found]; rfl]
    exact .advance (more_of_found found (by decide))
  exact name.bind fun _ _ => readParams_balanced.bind fun _ _ =>
    (readBlock_balanced h).bind fun _ _ => .pure

omit h in
theorem readArrowParams_balanced : readArrowParams.Shifts tokens 0 := by
  refine .check_bind (.ite (fun found => ?_) fun _ => readParams_balanced)
  exact .advance_bind (by rw [beq_iff_eq.mp found]; decide) fun _ _ => .pure

theorem readArrow_balanced : (readArrow rules).Shifts tokens 0 := by
  refine .current_bind (readArrowParams_balanced.bind fun _ _ => .expect_bind (by decide) fun _ _ => ?_)
  refine Shifts.bind ?_ fun _ _ => .pure
  exact .check_bind (.ite (fun _ => readBlock_balanced h) fun _ => h.expression _)

/-! ### Arguments, members, lists and objects -/

theorem readSpreadOrExpression_balanced : (readSpreadOrExpression rules).Shifts tokens 0 := by
  refine .check_bind (.ite (fun found => ?_) fun _ => h.expression _)
  exact .advance_bind (by rw [beq_iff_eq.mp found]; decide) fun _ rest =>
    (h.expression rest).bind fun _ _ => .pure

theorem readArguments_balanced : (readArguments rules).Shifts tokens 0 := by
  refine .expect_open_bind (by decide) fun _ _ => .room_bind fun _ => ?_
  exact (Shifts.commaList fun _ => readSpreadOrExpression_balanced h).bind fun _ _ => .expect_close_pure (by decide)

omit h in
theorem readNamedMember_balanced {object : Node} : (readNamedMember object start).Shifts tokens 0 := by
  refine .expect_bind (by decide) fun _ rest => .current_bind (.ite (fun word => ?_) fun _ => .unexpected)
  exact .advance_bind (isFlat_of_isWord word) fun _ _ => .pure

theorem readComputedMember_balanced {object : Node} :
    (readComputedMember rules object start).Shifts tokens 0 :=
  .expect_open_bind (by decide) fun _ rest => (h.expression rest).bind fun _ _ => .expect_close_pure (by decide)

theorem readElements_balanced {n : Nat} : (readElements rules n).Shifts tokens 0 := by
  induction n generalizing tokens with
  | zero => exact .tooDeep
  | succ n ih =>
    rw [readElements]
    refine .check_bind (.ite (fun _ => .pure) fun _ => .check_bind (.ite (fun found => ?_) fun _ => ?_))
    · exact .advance_bind (by rw [beq_iff_eq.mp found]; decide) fun _ _ => ih.bind fun _ _ => .pure
    · exact (readSpreadOrExpression_balanced h).bind fun _ _ => Shifts.separator.bind fun _ _ =>
        ih.bind fun _ _ => .pure

theorem readArray_balanced : (readArray rules).Shifts tokens 0 :=
  .expect_open_bind (by decide) fun _ _ => .room_bind fun _ =>
    (readElements_balanced h).bind fun _ _ => .expect_close_pure (by decide)

theorem readKey_balanced : (readKey rules).Shifts tokens 0 := by
  refine .current_bind (.accept_open_bind (by decide) (fun rest => ?_) ?_)
  · exact (h.expression rest).bind fun _ _ => .expect_close_pure (by decide)
  · refine .ite nofun fun _ => .ite (fun found => ?_) fun _ => .ite (fun found => ?_) fun _ =>
      .ite (fun word => ?_) fun _ => .unexpected
    · exact .advance_bind (by rw [beq_iff_eq.mp found]; decide) fun _ _ => .pure
    · exact .advance_bind (by rw [beq_iff_eq.mp found]; decide) fun _ _ => .pure
    · exact .advance_bind (isFlat_of_isWord word) fun _ _ => .pure

theorem readProperty_balanced : (readProperty rules).Shifts tokens 0 := by
  refine .current_bind ((readKey_balanced h).bind fun _ _ => ?_)
  refine .accept_bind (by decide) fun _ rest => .ite (fun _ => ?_) fun _ =>
    .check_bind (.ite (fun _ => ?_) fun _ => ?_)
  · exact (h.expression rest).bind fun _ _ => .pure
  · exact readParams_balanced.bind fun _ _ => (readBlock_balanced h).bind fun _ _ => .pure
  · exact .check_bind (.check_bind (.ite (fun _ => .pure) fun _ => .unexpected))

theorem readProperties_balanced {n : Nat} : (readProperties rules n).Shifts tokens 0 := by
  induction n generalizing tokens with
  | zero => exact .tooDeep
  | succ n ih =>
    rw [readProperties]
    exact .check_bind (.ite (fun _ => .pure) fun _ => (readProperty_balanced h).bind fun _ _ =>
      Shifts.separator.bind fun _ _ => ih.bind fun _ _ => .pure)

theorem readObject_balanced : (readObject rules).Shifts tokens 0 :=
  .expect_open_bind (by decide) fun _ _ => .room_bind fun _ =>
    (readProperties_balanced h).bind fun _ _ => .expect_close_pure (by decide)

/-! ### Primary expressions, members and calls -/

theorem readPrimary_balanced : (readPrimary rules).Shifts tokens 0 := by
  refine .current_bind ?_
  cases literal : literalLabel? (head tokens).kind with
  | some label => exact .advance_bind (isFlat_of_literal literal) fun _ _ => .pure
  | none =>
    dsimp only
    cases kind : (head tokens).kind with
    | template => exact .advance_bind (by rw [kind]; decide) fun _ _ => readTemplate_balanced h
    | identifier => exact .advance_bind (by rw [kind]; decide) fun _ _ => .pure
    | thisWord => exact .advance_bind (by rw [kind]; decide) fun _ _ => .pure
    | leftParen =>
      exact .advance_open_bind (by rw [kind]; decide) fun _ rest =>
        (h.expression rest).bind fun _ _ => .expect_close_pure (by decide)
    | leftBracket => exact readArray_balanced h
    | leftBrace => exact readObject_balanced h
    | functionWord => exact readFunction_balanced h kind
    | _ => exact .unexpected

theorem readMembers_balanced {n : Nat} {object : Node} :
    (readMembers rules start n object).Shifts tokens 0 := by
  induction n generalizing tokens object with
  | zero => exact .tooDeep
  | succ n ih =>
    rw [readMembers]
    refine .check_bind (.ite (fun _ => ?_) fun _ => .check_bind (.ite (fun _ => ?_) fun _ => .pure))
    · exact readNamedMember_balanced.bind fun _ _ => ih
    · exact (readComputedMember_balanced h).bind fun _ _ => ih

theorem readHead_balanced {construct : Reader Node}
    (constructs : (head tokens).kind = .newWord → construct.Shifts tokens 0) :
    (readHead rules construct).Shifts tokens 0 :=
  .check_bind (.ite (fun found => constructs (beq_iff_eq.mp found)) fun _ => readPrimary_balanced h)

theorem readConstruct_balanced (word : (head tokens).kind = .newWord) :
    (readConstruct rules).Shifts tokens 0 := by
  refine .advance_bind (by rw [word]; decide) fun _ rest => ?_
  have callee : (readConstructed rules).Shifts rest 0 :=
    .current_bind ((readHead_balanced h (h .construct rest)).bind fun _ _ =>
      .room_bind fun _ => readMembers_balanced h)
  refine callee.bind fun _ _ => Shifts.bind ?_ fun _ _ => .pure
  exact .check_bind (.ite (fun _ => readArguments_balanced h) fun _ => .pure)

theorem readCalls_balanced {n : Nat} {callee : Node} :
    (readCalls rules start n callee).Shifts tokens 0 := by
  induction n generalizing tokens callee with
  | zero => exact .tooDeep
  | succ n ih =>
    rw [readCalls]
    refine .check_bind (.ite (fun _ => ?_) fun _ => .check_bind (.ite (fun _ => ?_) fun _ =>
      .check_bind (.ite (fun _ => ?_) fun _ => .check_bind (.ite (fun found => ?_) fun _ => .pure))))
    · exact readNamedMember_balanced.bind fun _ _ => ih
    · exact (readComputedMember_balanced h).bind fun _ _ => ih
    · exact (readArguments_balanced h).bind fun _ _ => ih
    · exact .advance_bind (by rw [beq_iff_eq.mp found]; decide) fun _ _ =>
        (readTemplate_balanced h).bind fun _ _ => ih

theorem readCallMember_balanced : (readCallMember rules).Shifts tokens 0 :=
  .current_bind ((readHead_balanced h (readConstruct_balanced h)).bind fun _ _ =>
    .room_bind fun _ => readCalls_balanced h)

/-! ### Operators -/

theorem readPostfix_balanced : (readPostfix rules).Shifts tokens 0 := by
  refine .current_bind ((readCallMember_balanced h).bind fun _ rest => .checkStep_bind
    (.current_bind (.ite (fun step => .ite (fun _ => ?_) fun _ => .fail) fun _ => .pure)))
  exact .advance_bind (isFlat_of_step (Bool.and_eq_true_iff.mp step).1) fun _ _ => .pure

theorem readUnary_balanced : (readUnary rules).Shifts tokens 0 := by
  have operand (rest : List Token) := h .unary rest trivial
  refine .current_bind (.ite (fun isPrefix => ?_) fun _ => .checkStep_bind (.ite (fun step => ?_)
    fun _ => readPostfix_balanced h))
  · exact .advance_bind (isFlat_of_isPrefixOperator isPrefix) fun _ rest =>
      (operand rest).bind fun _ _ => .pure
  · exact .advance_bind (isFlat_of_step step) fun _ rest =>
      (operand rest).bind fun _ _ => .ite (fun _ => .pure) fun _ => .fail

theorem readOperators_balanced {least n : Nat} {left : Node} :
    (readOperators rules least start n left).Shifts tokens 0 := by
  induction n generalizing tokens left with
  | zero => exact .tooDeep
  | succ n ih =>
    rw [readOperators]
    refine .current_bind ?_
    cases operator : precedence? (head tokens) with
    | none => exact .pure
    | some precedence =>
      refine .ite (fun _ => .pure) fun _ => .advance_bind (isFlat_of_precedence? operator) fun _ rest => ?_
      exact (h (.binary _) rest trivial).bind fun _ _ => ih

theorem readBinary_balanced {least : Nat} : (readBinary rules least).Shifts tokens 0 :=
  .current_bind ((readUnary_balanced h).bind fun _ _ => .room_bind fun _ => readOperators_balanced h)

theorem readConditional_balanced : (readConditional rules).Shifts tokens 0 := by
  refine .current_bind ((readBinary_balanced h).bind fun _ _ => ?_)
  refine .accept_bind (by decide) fun _ rest => .ite (fun _ => ?_) fun _ => .pure
  exact (h.expression rest).bind fun _ _ => .expect_bind (by decide) fun _ rest =>
    (h.expression rest).bind fun _ _ => .pure

omit h in
/-- Looking for an arrow consumes nothing. -/
theorem checkArrow_balanced : checkArrow.Shifts tokens 0 := by
  unfold checkArrow
  refine .current_bind ?_
  cases (head tokens).kind with
  | identifier => exact Shifts.pure (a := (tokens[1]?.getD (tokens.getLastD Token.missing)).kind == .arrow)
  | leftParen => exact Shifts.pure (a := arrowAhead 0 tokens)
  | _ => exact .pure

/-- **Expressions are balanced.** -/
theorem readExpression_balanced : (readExpression rules).Shifts tokens 0 := by
  refine checkArrow_balanced.bind fun _ _ => .ite (fun _ => readArrow_balanced h) fun _ => ?_
  refine .current_bind ((readConditional_balanced h).bind fun _ rest => ?_)
  refine .check_bind (.ite (fun assigns => .ite (fun _ => ?_) fun _ => .fail) fun _ => .pure)
  exact .advance_bind (by rw [beq_iff_eq.mp assigns]; decide) fun _ rest =>
    (h.expression rest).bind fun _ _ => .pure

/-! ### Statements -/

omit h in
theorem readStatementEnd_balanced : readStatementEnd.Shifts tokens 0 :=
  .accept_bind (by decide) fun _ _ => .ite (fun _ => .pure) fun _ =>
    .current_bind (.ite (fun _ => .pure) fun _ => .unexpected)

theorem readDeclarator_balanced : (readDeclarator rules).Shifts tokens 0 := by
  refine .expect_bind (by decide) fun _ rest => .current_bind (.ite (fun assigns => ?_) fun _ => .pure)
  have assigns := beq_iff_eq.mp (Bool.and_eq_true_iff.mp assigns).1
  exact .advance_bind (by rw [assigns]; decide) fun _ rest => (h.expression rest).bind fun _ _ => .pure

theorem readDeclaration_balanced (word : (head tokens).kind.IsFlat) :
    (readDeclaration rules).Shifts tokens 0 :=
  .advance_bind word fun _ _ => .room_bind fun _ =>
    (Shifts.commaSeparated fun _ => readDeclarator_balanced h).bind fun _ _ =>
      readStatementEnd_balanced.bind fun _ _ => .pure

theorem readFunctionDeclaration_balanced (word : (head tokens).kind.IsFlat) :
    (readFunctionDeclaration rules).Shifts tokens 0 :=
  .advance_bind word fun _ _ => .expect_bind (by decide) fun _ _ => readParams_balanced.bind fun _ _ =>
    (readBlock_balanced h).bind fun _ _ => .pure

theorem readConditionalStatement_balanced (word : (head tokens).kind.IsFlat) :
    (readConditionalStatement rules).Shifts tokens 0 := by
  refine .advance_bind word fun _ _ => .expect_open_bind (by decide) fun _ rest => ?_
  refine (h.expression rest).bind fun _ _ => .expect_close_bind (by decide) fun _ rest => ?_
  refine (h.statement rest).bind fun _ _ => .accept_bind (by decide) fun _ rest => ?_
  exact .ite (fun _ => (h.statement rest).bind fun _ _ => .pure) fun _ => .pure

theorem readReturn_balanced (word : (head tokens).kind.IsFlat) :
    (readReturn rules).Shifts tokens 0 := by
  refine .advance_bind word fun _ rest => .current_bind (.ite (fun _ => ?_) fun _ => ?_)
  · exact readStatementEnd_balanced.bind fun _ _ => .pure
  · exact (h.expression rest).bind fun _ _ => readStatementEnd_balanced.bind fun _ _ => .pure

/-- **Statements are balanced.** -/
theorem readStatement_balanced : (readStatement rules).Shifts tokens 0 := by
  refine .current_bind ?_
  cases kind : (head tokens).kind with
  | leftBrace => exact readBlock_balanced h
  | semicolon => exact .advance_bind (by rw [kind]; decide) fun _ _ => .pure
  | varWord => exact readDeclaration_balanced h (by rw [kind]; decide)
  | letWord => exact readDeclaration_balanced h (by rw [kind]; decide)
  | constWord => exact readDeclaration_balanced h (by rw [kind]; decide)
  | functionWord => exact readFunctionDeclaration_balanced h (by rw [kind]; decide)
  | ifWord => exact readConditionalStatement_balanced h (by rw [kind]; decide)
  | returnWord => exact readReturn_balanced h (by rw [kind]; decide)
  | _ =>
    exact (readExpression_balanced h).bind fun _ _ => readStatementEnd_balanced.bind fun _ _ => .pure

end Rules

/-- A text of its own has its own brackets, and those at hand are left alone. -/
theorem readFragment_balanced {rules : Rules} {tokens : List Token} {source : Text} {line : Int} :
    (readFragment rules source line).Shifts tokens 0 := by
  unfold readFragment
  split
  · exact .throw
  · split
    · exact .throw
    · exact .pure

/-- **All rules are balanced**, to whatever depth they are read. -/
theorem readRule_balanced (depth : Nat) : (readRule depth).Balanced := by
  intro rule tokens readable
  induction depth generalizing rule tokens with
  | zero => exact .tooDeep
  | succ depth ih =>
    cases rule with
    | statement => exact readStatement_balanced ih
    | expression => exact readExpression_balanced ih
    | binary least => exact readBinary_balanced ih
    | unary => exact readUnary_balanced ih
    | construct => exact readConstruct_balanced ih readable
    | fragment source line => exact readFragment_balanced

/-! ## Programs -/

/-- A list of items that goes on until a token of some kind leaves such a token. -/
theorem head_of_manyUntil_check {item : Reader α} {kind : TokenKind} {n : Nat}
    {tokens rest : List Token} {xs : List α}
    (h : manyUntil (check kind) item n tokens = .ok (xs, rest)) : (head rest).kind = kind := by
  induction n generalizing tokens xs with
  | zero => cases h
  | succ n ih =>
    by_cases found : ((head tokens).kind == kind) = true
    · replace h : (if ((head tokens).kind == kind) = true then pure [] else _ : Reader (List α)) tokens
        = .ok (xs, rest) := h
      rw [if_pos found] at h
      cases h
      exact beq_iff_eq.mp found
    · replace h : (if ((head tokens).kind == kind) = true then _ else
        (item >>= fun x => (fun xs => x :: xs) <$> manyUntil (check kind) item n) : Reader (List α)) tokens
        = .ok (xs, rest) := h
      rw [if_neg found] at h
      obtain ⟨⟨x, between⟩, -, h⟩ := Except.of_bind_eq_ok h
      obtain ⟨⟨xs', rest'⟩, h, same⟩ := Except.of_bind_eq_ok h
      cases same
      exact ih h

/-- A program has its statements read one after the other. -/
theorem statements_of_readProgram {rules : Rules} {tokens : List Token} {program : Node}
    (parsed : ((readProgram rules).run tokens).map Prod.fst = .ok program) :
    ∃ statements rest,
      manyUntil (check .endOfText) (rules .statement) tokens.length tokens = .ok (statements, rest)
      ∧ program = Node.make .program statements (head tokens) := by
  have run : readProgram rules tokens
      = manyUntil (check .endOfText) (rules .statement) tokens.length tokens
        >>= fun read => .ok (Node.make .program read.1 (head tokens), read.2) := rfl
  rw [StateT.run, run] at parsed
  cases read : manyUntil (check .endOfText) (rules .statement) tokens.length tokens with
  | error e =>
    rw [read] at parsed
    cases parsed
  | ok result =>
    rw [read] at parsed
    cases parsed
    exact ⟨result.1, result.2, rfl, rfl⟩

/-- A balance is what opening brackets there are more than closing ones. -/
theorem bracketBalance_eq (tokens : List Token) :
    bracketBalance tokens
      = tokens.countP (·.kind.isOpener) - (tokens.countP (·.kind.isCloser) : Int) := by
  induction tokens with
  | nil => rfl
  | cons t rest ih =>
    have change : bracketChange t.kind
        = (if t.kind.isOpener then 1 else 0 : Nat) - ((if t.kind.isCloser then 1 else 0 : Nat) : Int) := by
      cases t.kind <;> rfl
    rw [bracketBalance_cons, ih, change, List.countP_cons, List.countP_cons]
    push_cast
    omega

/-- **In tokens that form a program, brackets come in pairs.** If there are any tokens, they come
to an end, and before it as many brackets are closed as are opened. -/
theorem balanced_of_parseTokens {tokens : List Token} {program : Node}
    (parsed : parseTokens tokens = .ok program) :
    (tokens ≠ [] → HasEnd tokens)
      ∧ (beforeEnd tokens).countP (·.kind.isOpener) = (beforeEnd tokens).countP (·.kind.isCloser) := by
  obtain ⟨statements, rest, read, -⟩ := statements_of_readProgram parsed
  have leads := Shifts.manyUntil (fun _ => .check)
    (fun rest => readRule_balanced _ .statement rest trivial) statements rest read
  have ended := head_of_manyUntil_check read
  have hasEnd (some : tokens ≠ []) : HasEnd tokens :=
    leads.ends.mpr (hasEnd_of_ended (leads.some some) ended)
  refine ⟨hasEnd, ?_⟩
  by_cases none : tokens = []
  · rw [none]
    rfl
  · have balance := leads.balance (hasEnd none)
    rw [beforeEnd_of_ended ended, bracketBalance_nil, Int.add_zero, bracketBalance_eq] at balance
    omega

/-- The tokens of a text are those before its end, and the end. -/
theorem tokens_of_tokenize {source : Text} {line : Int} {tokens : List Token}
    (cut : tokenize source line = .ok tokens) :
    ∃ last, tokens = beforeEnd tokens ++ [last] ∧ last.kind = .endOfText := by
  have laid := tokenize_lays_out source line
  rw [cut] at laid
  obtain ⟨-, proper, last, rfl, ended, -, more⟩ := laid
  refine ⟨last, ?_, ended⟩
  have before : beforeEnd (proper ++ [last]) = proper := by
    rw [beforeEnd, List.takeWhile_append_of_pos fun t member => by simp [(more t member).1],
      List.takeWhile_cons_of_neg (by simp [ended]), List.append_nil]
  rw [before]

/-- **Enter hands in every program.** An entry that already is a program is not unfinished: as
many brackets are closed in it as are opened. The same holds of any tokens that form a program,
up to their end. -/
theorem Console.submits_programs :
    (∀ text program, parseProgram text = .ok program →
      isUnfinished text = false ∧ onEnter text = .submit
        ∧ ∃ tokens, tokenize text 1 = .ok tokens
          ∧ tokens.countP (·.kind.isOpener) = tokens.countP (·.kind.isCloser))
      ∧ ∀ tokens program, parseTokens tokens = .ok program →
        (beforeEnd tokens).countP (·.kind.isOpener) = (beforeEnd tokens).countP (·.kind.isCloser) := by
  refine ⟨fun text program parsed => ?_, fun tokens program parsed => (balanced_of_parseTokens parsed).2⟩
  unfold parseProgram at parsed
  cases cut : tokenize text 1 with
  | error e =>
    rw [cut] at parsed
    cases parsed
  | ok tokens =>
    rw [cut] at parsed
    have pairs : tokens.countP (·.kind.isOpener) = tokens.countP (·.kind.isCloser) := by
      obtain ⟨last, whole, ended⟩ := tokens_of_tokenize cut
      have before := (balanced_of_parseTokens parsed).2
      rw [whole, List.countP_append, List.countP_append, before, List.countP_singleton,
        List.countP_singleton, ended]
      rfl
    have finished : isUnfinished text = false := by
      unfold isUnfinished
      rw [cut]
      dsimp only
      rw [bracketBalance_eq, pairs, Int.sub_self]
      rfl
    refine ⟨finished, ?_, tokens, rfl, pairs⟩
    unfold onEnter
    rw [finished, Bool.not_false, Bool.or_true]
    rfl

/-- An entry of one statement, without a semicolon. -/
theorem Console.submits_programs_of_call :
    ∃ program, parseProgram "f(a[0], (b))" = .ok program ∧ isUnfinished "f(a[0], (b))" = false
      ∧ onEnter "f(a[0], (b))" = .submit := by
  have reads : (parseProgram "f(a[0], (b))").isOk = true := by decide +kernel
  cases parsed : parseProgram "f(a[0], (b))" with
  | ok program =>
    obtain ⟨finished, submits, -⟩ := submits_programs.1 _ program parsed
    exact ⟨program, rfl, finished, submits⟩
  | error e => simp [parsed, Except.isOk, Except.toBool] at reads

end Scriptlet
