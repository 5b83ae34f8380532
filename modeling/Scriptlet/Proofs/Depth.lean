import Scriptlet.Proofs.Conformance
import Scriptlet.Proofs.Ending
import Scriptlet.Proofs.Relexing

/-!
# The depth of reading suffices

The reader of a text is granted a depth, and it would give up if that were used up. Here it
is shown that this never happens, so that a text is a program or has an error of spelling or
of grammar, and that a greater depth changes nothing.

A rule refers to others only once a token has been consumed, and the depth that some tokens
are granted is less for those behind them. An expression in a template is cut into tokens of
its own, but its text is shorter than the template, which counts in full among the tokens. So
rules that end alike *below* some tokens, wherever something has been consumed and on texts
that are shorter, make a rule that refers to them end alike on these tokens. The grammar is
gone through once more, as it is written, and the circle of rules is closed by induction on
the depth.
-/

namespace Scriptlet

open Reader

/-! ## Depths -/

theorem extent_pos (t : Token) : 0 < t.extent :=
  Nat.lt_of_lt_of_le Nat.one_pos (Nat.le_max_left 1 _)

theorem depthFor_pos (tokens : List Token) : 0 < depthFor tokens := by
  induction tokens with
  | nil => exact Nat.one_pos
  | cons t rest ih => exact Nat.lt_of_lt_of_le ih (Nat.le_add_left _ _)

/-- What is behind the first token of what is left is behind the first token. -/
theorem tail_suffix_tail {rest tokens : List α} (h : rest <:+ tokens) : rest.tail <:+ tokens.tail := by
  obtain ⟨front, rfl⟩ := h
  cases front with
  | nil => exact List.suffix_rfl
  | cons t front => exact (List.tail_suffix rest).trans (List.suffix_append front rest)

/-- What is left behind the first token of what is left. -/
theorem suffix_of_tail {rest rest' limit : List α} (behind : rest' <:+ rest.tail)
    (within : rest <:+ limit) : rest' <:+ limit :=
  behind.trans ((List.tail_suffix rest).trans within)

/-- The depth to which tokens are read is more than their number. -/
theorem length_lt_depthFor (tokens : List Token) : tokens.length < depthFor tokens := by
  induction tokens with
  | nil => exact Nat.one_pos
  | cons t rest ih =>
    have := extent_pos t
    rw [depthFor, List.length_cons]
    omega

/-- What is left of some tokens is granted no more than they are. -/
theorem depthFor_le_of_suffix {rest tokens : List Token} (h : rest <:+ tokens) :
    depthFor rest ≤ depthFor tokens := by
  obtain ⟨front, rfl⟩ := h
  induction front with
  | nil => exact Nat.le_refl _
  | cons t front ih => exact Nat.le_trans ih (Nat.le_add_left _ _)

/-- Behind a token less is granted. -/
theorem depthFor_lt_of_suffix_tail {rest tokens : List Token} (h : rest <:+ tokens.tail)
    (some : tokens ≠ []) : depthFor rest < depthFor tokens := by
  obtain ⟨t, behind, rfl⟩ := List.exists_cons_of_ne_nil some
  have := depthFor_le_of_suffix (show rest <:+ behind from h)
  have := extent_pos t
  rw [depthFor]
  omega

/-- The body of a template is shorter than what is granted to the tokens that start with it. -/
theorem body_lt_depthFor {t : Token} (h : t.kind = .template) (rest : List Token) :
    t.text.length + 2 < depthFor (t :: rest) := by
  have source : t.source = backtick :: t.text ++ [backtick] := if_pos h
  have length : t.source.length ≤ t.extent := Nat.le_max_right 1 _
  rw [source, List.length_append, List.length_cons, List.length_singleton] at length
  have := depthFor_pos rest
  rw [depthFor]
  omega

/-! ## Tokens that something is behind -/

/-- A step is not the end of the text. -/
theorem more_of_step {t : Token} (step : (t.kind == .increment || t.kind == .decrement) = true) :
    t.kind ≠ .endOfText :=
  (Bool.or_eq_true_iff.mp step).elim (more_of_found · (by decide)) (more_of_found · (by decide))

/-- A word is not the end of the text. -/
theorem more_of_isWord {t : Token} (word : t.kind.isWord = true) : t.kind ≠ .endOfText := by
  intro ended
  rw [ended] at word
  cases word

/-- An operator that stands before its operand is not the end of the text. -/
theorem more_of_isPrefixOperator {t : Token} (h : isPrefixOperator t = true) :
    t.kind ≠ .endOfText := by
  intro ended
  unfold isPrefixOperator at h
  rw [ended] at h
  cases h

/-- An operator between operands is not the end of the text. -/
theorem more_of_precedence? {t : Token} {precedence : Nat} (h : precedence? t = some precedence) :
    t.kind ≠ .endOfText := by
  intro ended
  unfold precedence? at h
  rw [ended] at h
  cases h

/-! ## Rules below some tokens -/

/-- Whether a rule **is readable** at some tokens: a construction only at its first word. -/
def Rule.IsReadable : Rule → List Token → Prop
  | construct, tokens => (head tokens).kind = .newWord
  | _, _ => True

/-- What a rule leaves is within this. Each consumes something, but for a text of its own, which
leaves the tokens at hand alone. -/
def Rule.limit : Rule → List Token → List Token
  | fragment _ _, tokens => tokens
  | _, tokens => tokens.tail

/-- Whether a rule **is below** some tokens: it is read behind the first of them, or it is the
text of an expression that is short enough for a template among them. -/
def Rule.IsBelow (tokens : List Token) : Rule → List Token → Prop
  | fragment source _, _ => source.length + 2 < depthFor tokens
  | _, rest => rest <:+ tokens.tail

/-- Rules end alike **below** some tokens. -/
def Rules.EndAlikeBelow (tokens : List Token) (rules rules' : Rules) : Prop :=
  ∀ rule rest, rule.IsReadable rest → rule.IsBelow tokens rest →
    (rules rule).EndAlike rest (rule.limit rest) (rules' rule)

/-- What is below the rest of some tokens is below these. -/
theorem Rule.IsBelow.of_suffix {tokens rest rest' : List Token} {rule : Rule}
    (h : rule.IsBelow rest rest') (within : rest <:+ tokens) : rule.IsBelow tokens rest' := by
  cases rule with
  | fragment source line => exact Nat.lt_of_lt_of_le h (depthFor_le_of_suffix within)
  | _ => exact h.trans (tail_suffix_tail within)

/-! ## Expressions -/

section Rules

variable {tokens rest : List Token} {rules rules' : Rules} {t start : Token}

namespace Rules.EndAlikeBelow

variable (h : rules.EndAlikeBelow tokens rules') (within : rest <:+ tokens.tail)
include h within

theorem statement : (rules .statement).EndAlike rest rest.tail (rules' .statement) :=
  h .statement rest trivial within

theorem expression : (rules .expression).EndAlike rest rest.tail (rules' .expression) :=
  h .expression rest trivial within

/-- A construct that ends with an expression. -/
theorem expression_pure {f : Node → β} :
    (rules .expression >>= fun n => pure (f n)).EndAlike rest rest
      (rules' .expression >>= fun n => pure (f n)) :=
  ((h.expression within).bind fun _ _ _ => .pure).loose

/-- Rules that end alike below some tokens do so below what is behind the first. -/
theorem behind : rules.EndAlikeBelow rest rules' :=
  fun rule rest' readable below =>
    h rule rest' readable (below.of_suffix (within.trans (List.tail_suffix tokens)))

end Rules.EndAlikeBelow

/-- The expressions of a template are shorter than its body. -/
theorem length_of_mem_splitTemplateFrom {offset hidden : Nat} {chunk body : Text}
    {parts : TemplateParts} (h : splitTemplateFrom offset chunk hidden body = .ok parts) :
    ∀ e ∈ parts.expressions, e.1.length + 3 ≤ body.length := by
  fun_induction splitTemplateFrom offset chunk hidden body generalizing parts with
  | case1 => cases h; exact fun e he => by cases he
  | case2 _ _ _ _ _ ih => exact fun e he => Nat.le_succ_of_le (ih h e he)
  | case3 => cases h; exact fun e he => by cases he
  | case4 _ _ _ _ _ _ ih => exact fun e he => Nat.le_succ_of_le (Nat.le_succ_of_le (ih h e he))
  | case5 => cases h
  | case6 => cases h
  | case7 _ _ c rest _ opens n found parts hparts ih =>
    cases h
    intro e he
    rcases List.mem_cons.mp he with rfl | he
    · obtain ⟨pos, le, -⟩ := (Enclosure.recurs_measure found).1
      rw [List.length_drop] at le
      have taken := List.length_take_le (n - 1) (rest.drop 1)
      show ((rest.drop 1).take (n - 1)).length + 3 ≤ rest.length + 1
      omega
    · exact Nat.le_succ_of_le (ih hparts e he)
  | case8 _ _ _ _ _ _ ih => exact fun e he => Nat.le_succ_of_le (ih h e he)

section Below

variable (h : rules.EndAlikeBelow tokens rules')
include h

theorem readTemplateParts_endAlike {chunks : List Text} {expressions : List (Text × Nat)}
    (short : ∀ e ∈ expressions, e.1.length + 2 < depthFor tokens) :
    (readTemplateParts rules t chunks expressions).EndAlike rest rest
      (readTemplateParts rules' t chunks expressions) := by
  induction chunks generalizing expressions rest with
  | nil => exact .pure
  | cons chunk chunks ih =>
    unfold readTemplateParts
    cases expressions with
    | nil => exact (ih fun e he => by cases he).bind fun _ _ _ => .pure
    | cons e expressions =>
      obtain ⟨source, offset⟩ := e
      refine (h (.fragment source _) rest trivial (short _ List.mem_cons_self)).bind fun _ _ _ => ?_
      exact (ih fun e he => short e (List.mem_cons_of_mem _ he)).bind fun _ _ _ => .pure

theorem readTemplate_endAlike (short : t.text.length + 2 < depthFor tokens) :
    (readTemplate rules t).EndAlike rest rest (readTemplate rules' t) := by
  unfold readTemplate
  cases split : splitTemplate t.text with
  | error e => exact .throw nofun
  | ok parts =>
    refine (readTemplateParts_endAlike h fun e he => ?_).bind fun _ _ _ => .pure
    have := length_of_mem_splitTemplateFrom split e he
    omega

/-! ### Functions -/

omit h in
theorem readParams_ends : Ends tokens tokens.tail readParams := by
  refine (EndAlike.expect (by decide)).bind fun start rest within => .room_bind ?_
  refine (EndAlike.commaList (Nat.le_refl _) fun rest _ => (EndAlike.expect (by decide)).map).bind
    fun _ _ _ => ?_
  exact .expect_pure (by decide)

theorem readBlock_endAlike :
    (readBlock rules).EndAlike tokens tokens.tail (readBlock rules') := by
  refine (EndAlike.expect (by decide)).bind fun start rest within => .room_bind ?_
  refine (EndAlike.manyUntil (Nat.le_refl _) (fun rest _ => ?_) fun rest' hr =>
    h.statement (hr.trans within)).bind fun _ _ _ => ?_
  · exact .check_bind (.ite (fun _ => .unexpected) fun _ => .check)
  · exact .expect_pure (by decide)

theorem readFunction_endAlike (word : (head tokens).kind = .functionWord) :
    (readFunction rules).EndAlike tokens tokens.tail (readFunction rules') := by
  refine .advance_bind (by rw [word]; decide) fun rest within _ => ?_
  have name : Ends rest rest readName? := by
    refine .check_bind (.ite (fun found => ?_) fun _ => .pure)
    exact (EndAlike.advance (more_of_found found (by decide))).loose.map
  refine name.bind fun _ rest₁ within₁ => readParams_ends.loose.bind fun _ rest₂ within₂ => ?_
  have behind := h.behind (within₂.trans (within₁.trans within))
  exact ((readBlock_endAlike behind).bind fun _ _ _ => .pure).loose

omit h in
theorem readArrowParams_ends : Ends tokens tokens.tail readArrowParams := by
  refine .check_bind (.ite (fun found => ?_) fun _ => readParams_ends)
  exact .advance_bind (more_of_found found (by decide)) fun _ _ _ => .pure

theorem readArrowBody_endAlike (within : rest <:+ tokens.tail) :
    (readArrowBody rules).EndAlike rest rest.tail (readArrowBody rules') :=
  .check_bind (.ite (fun _ => readBlock_endAlike (h.behind within)) fun _ => h.expression within)

theorem readArrow_endAlike :
    (readArrow rules).EndAlike tokens tokens.tail (readArrow rules') := by
  refine .current_bind (readArrowParams_ends.bind fun _ rest within => ?_)
  refine (EndAlike.expect (by decide)).loose.bind fun _ rest' within' => ?_
  exact ((readArrowBody_endAlike h (within'.trans within)).bind fun _ _ _ => .pure).loose

/-! ### Arguments and members -/

theorem readSpreadOrExpression_endAlike (within : rest <:+ tokens.tail) :
    (readSpreadOrExpression rules).EndAlike rest rest.tail (readSpreadOrExpression rules') := by
  refine .check_bind (.ite (fun found => ?_) fun _ => h.expression within)
  refine .advance_bind (more_of_found found (by decide)) fun rest' within' _ => ?_
  have below := suffix_of_tail within' within
  exact h.expression_pure below

theorem readArguments_endAlike :
    (readArguments rules).EndAlike tokens tokens.tail (readArguments rules') := by
  refine (EndAlike.expect (by decide)).bind fun start rest within => .room_bind ?_
  refine (EndAlike.commaList (Nat.le_refl _) fun rest' hr =>
    readSpreadOrExpression_endAlike h (hr.trans within)).bind fun _ _ _ => ?_
  exact .expect_pure (by decide)

omit h in
theorem readNamedMember_ends {object : Node} :
    Ends tokens tokens.tail (readNamedMember object start) := by
  refine (EndAlike.expect (by decide)).bind fun _ rest _ => .current_bind ?_
  refine .ite (fun word => ?_) fun _ => .unexpected
  exact .loose (.advance_bind (more_of_isWord word) fun _ _ _ => .pure)

theorem readComputedMember_endAlike {object : Node} :
    (readComputedMember rules object start).EndAlike tokens tokens.tail
      (readComputedMember rules' object start) := by
  refine (EndAlike.expect (by decide)).bind fun _ rest within => ?_
  refine ((h.expression within).bind fun _ _ _ => ?_).loose
  exact .expect_pure (by decide)

/-! ### Lists and objects -/

theorem readElements_endAlike {n : Nat} (bound : rest.length ≤ n) (within : rest <:+ tokens.tail) :
    (readElements rules n).EndAlike rest rest (readElements rules' n) := by
  induction n generalizing rest with
  | zero => exact .of_length_le_zero bound
  | succ n ih =>
    rw [readElements, readElements]
    refine .check_bind (.ite (fun _ => .pure) fun _ => .check_bind (.ite (fun found => ?_) fun _ => ?_))
    · refine .loose (.advance_bind (more_of_found found (by decide)) fun rest' within' _ => ?_)
      have below := suffix_of_tail within' within
      exact (ih (EndAlike.length_tail_le bound within') below).bind fun _ _ _ => .pure
    · refine ((readSpreadOrExpression_endAlike h within).bind fun _ rest₁ within₁ => ?_).loose
      refine EndAlike.separator.bind fun _ rest₂ within₂ => ?_
      have behind := within₂.trans within₁
      have below := suffix_of_tail behind within
      exact (ih (EndAlike.length_tail_le bound behind) below).bind fun _ _ _ => .pure

theorem readArray_endAlike :
    (readArray rules).EndAlike tokens tokens.tail (readArray rules') := by
  refine (EndAlike.expect (by decide)).bind fun start rest within => .room_bind ?_
  refine (readElements_endAlike h (Nat.le_refl _) within).bind fun _ _ _ => ?_
  exact .expect_pure (by decide)

theorem readKey_endAlike : (readKey rules).EndAlike tokens tokens.tail (readKey rules') := by
  refine .current_bind (.accept_bind (by decide) List.suffix_rfl (fun rest within => ?_) ?_)
  · refine ((h.expression within).bind fun _ _ _ => ?_).loose
    exact .expect_pure (by decide)
  · refine .ite nofun fun _ => .ite (fun found => ?_) fun _ => .ite (fun found => ?_) fun _ =>
      .ite (fun word => ?_) fun _ => .unexpected
    · exact .advance_bind (more_of_found found (by decide)) fun _ _ _ => .pure
    · exact .advance_bind (more_of_found found (by decide)) fun _ _ _ => .pure
    · exact .advance_bind (more_of_isWord word) fun _ _ _ => .pure

theorem readProperty_endAlike :
    (readProperty rules).EndAlike tokens tokens.tail (readProperty rules') := by
  refine .current_bind ((readKey_endAlike h).bind fun key rest within => ?_)
  refine .accept_bind (by decide) (List.tail_suffix rest) (fun rest' within' => ?_) ?_
  · have below := suffix_of_tail within' within
    exact h.expression_pure below
  refine .check_bind (.ite (fun _ => ?_) fun _ => ?_)
  · refine (readParams_ends.bind fun _ rest' within' => ?_).loose
    have below := suffix_of_tail within' within
    exact ((readBlock_endAlike (h.behind below)).bind fun _ _ _ => .pure).loose
  · exact .check_bind (.check_bind (.ite (fun _ => .pure) fun _ => .unexpected))

theorem readProperties_endAlike {n : Nat} (bound : rest.length ≤ n) (within : rest <:+ tokens.tail) :
    (readProperties rules n).EndAlike rest rest (readProperties rules' n) := by
  induction n generalizing rest with
  | zero => exact .of_length_le_zero bound
  | succ n ih =>
    rw [readProperties, readProperties]
    refine .check_bind (.ite (fun _ => .pure) fun _ => ?_)
    refine ((readProperty_endAlike (h.behind within)).bind fun _ rest₁ within₁ => ?_).loose
    refine EndAlike.separator.bind fun _ rest₂ within₂ => ?_
    have behind := within₂.trans within₁
    have below := suffix_of_tail behind within
    exact (ih (EndAlike.length_tail_le bound behind) below).bind fun _ _ _ => .pure

theorem readObject_endAlike :
    (readObject rules).EndAlike tokens tokens.tail (readObject rules') := by
  refine (EndAlike.expect (by decide)).bind fun start rest within => .room_bind ?_
  refine (readProperties_endAlike h (Nat.le_refl _) within).bind fun _ _ _ => ?_
  exact .expect_pure (by decide)

/-! ### Primary expressions, members and calls -/

theorem readPrimary_endAlike :
    (readPrimary rules).EndAlike tokens tokens.tail (readPrimary rules') := by
  refine .current_bind ?_
  cases literal : literalLabel? (head tokens).kind with
  | some label =>
    refine .advance_bind (fun ended => ?_) fun _ _ _ => .pure
    rw [ended] at literal
    cases literal
  | none =>
    dsimp only
    cases kind : (head tokens).kind with
    | template =>
      refine .advance_bind (by rw [kind]; decide) fun rest within whole => ?_
      refine readTemplate_endAlike h ?_
      rw [whole]
      exact body_lt_depthFor kind rest
    | identifier => exact .advance_bind (by rw [kind]; decide) fun _ _ _ => .pure
    | thisWord => exact .advance_bind (by rw [kind]; decide) fun _ _ _ => .pure
    | leftParen =>
      refine .advance_bind (by rw [kind]; decide) fun rest within _ => ?_
      refine ((h.expression within).bind fun _ _ _ => ?_).loose
      exact .expect_pure (by decide)
    | leftBracket => exact readArray_endAlike h
    | leftBrace => exact readObject_endAlike h
    | functionWord => exact readFunction_endAlike h kind
    | _ => exact .unexpected

theorem readMembers_endAlike {n : Nat} {object : Node} (bound : tokens.length ≤ n) :
    (readMembers rules start n object).EndAlike tokens tokens
      (readMembers rules' start n object) := by
  induction n generalizing tokens object with
  | zero => exact .of_length_le_zero bound
  | succ n ih =>
    rw [readMembers, readMembers]
    have more {rest : List Token} {object : Node} (within : rest <:+ tokens.tail) :
        (readMembers rules start n object).EndAlike rest rest (readMembers rules' start n object) :=
      ih (h.behind within) (EndAlike.length_tail_le bound within)
    refine .check_bind (.ite (fun _ => ?_) fun _ => .check_bind (.ite (fun _ => ?_) fun _ => .pure))
    · exact (readNamedMember_ends.bind fun _ _ within => more within).loose
    · exact ((readComputedMember_endAlike h).bind fun _ _ within => more within).loose

theorem readHead_endAlike {construct construct' : Reader Node}
    (constructs : (head tokens).kind = .newWord → construct.EndAlike tokens tokens.tail construct') :
    (readHead rules construct).EndAlike tokens tokens.tail (readHead rules' construct') :=
  .check_bind (.ite (fun found => constructs (beq_iff_eq.mp found)) fun _ => readPrimary_endAlike h)

theorem readConstruct_endAlike (word : (head tokens).kind = .newWord) :
    (readConstruct rules).EndAlike tokens tokens.tail (readConstruct rules') := by
  refine .advance_bind (by rw [word]; decide) fun rest within _ => ?_
  have callee : (readConstructed rules).EndAlike rest rest (readConstructed rules') := by
    refine .current_bind ((readHead_endAlike (h.behind within) fun word => ?_).bind
      fun first rest' within' => ?_).loose
    · exact h .construct rest word within
    · have below := suffix_of_tail within' within
      exact .room_bind (readMembers_endAlike (h.behind below) (Nat.le_refl _))
  refine callee.bind fun _ rest' within' => EndAlike.bind ?_ fun _ _ _ => .pure
  refine .check_bind (.ite (fun _ => ?_) fun _ => .pure)
  exact (readArguments_endAlike (h.behind (within'.trans within))).loose

theorem readCalls_endAlike {n : Nat} {callee : Node} (bound : tokens.length ≤ n) :
    (readCalls rules start n callee).EndAlike tokens tokens (readCalls rules' start n callee) := by
  induction n generalizing tokens callee with
  | zero => exact .of_length_le_zero bound
  | succ n ih =>
    rw [readCalls, readCalls]
    have more {rest : List Token} {callee : Node} (within : rest <:+ tokens.tail) :
        (readCalls rules start n callee).EndAlike rest rest (readCalls rules' start n callee) :=
      ih (h.behind within) (EndAlike.length_tail_le bound within)
    refine .check_bind (.ite (fun _ => ?_) fun _ => .check_bind (.ite (fun _ => ?_) fun _ =>
      .check_bind (.ite (fun _ => ?_) fun _ => .check_bind (.ite (fun found => ?_) fun _ => .pure))))
    · exact (readNamedMember_ends.bind fun _ _ within => more within).loose
    · exact ((readComputedMember_endAlike h).bind fun _ _ within => more within).loose
    · exact ((readArguments_endAlike h).bind fun _ _ within => more within).loose
    · refine .loose (.advance_bind (more_of_found found (by decide)) fun rest within whole => ?_)
      refine (readTemplate_endAlike h ?_).bind fun _ _ within' => more (within'.trans within)
      rw [whole]
      exact body_lt_depthFor (beq_iff_eq.mp found) rest

theorem readCallMember_endAlike :
    (readCallMember rules).EndAlike tokens tokens.tail (readCallMember rules') := by
  refine .current_bind ((readHead_endAlike h (readConstruct_endAlike h)).bind
    fun first rest within => .room_bind ?_)
  exact readCalls_endAlike (h.behind within) (Nat.le_refl _)

/-! ### Operators -/

omit h in
theorem checkStep_bind_endAlike {next next' : Bool → Reader β} {limit : List Token}
    (more : (next ((head tokens).kind == .increment || (head tokens).kind == .decrement)).EndAlike
      tokens limit (next' ((head tokens).kind == .increment || (head tokens).kind == .decrement))) :
    (checkStep >>= next).EndAlike tokens limit (checkStep >>= next') :=
  more

theorem readPostfix_endAlike :
    (readPostfix rules).EndAlike tokens tokens.tail (readPostfix rules') := by
  refine .current_bind ((readCallMember_endAlike h).bind fun target rest within => ?_)
  refine checkStep_bind_endAlike (.current_bind (.ite (fun step => .ite (fun _ => ?_) fun _ => .fail)
    fun _ => .pure))
  have step := (Bool.and_eq_true_iff.mp step).1
  exact .loose (.advance_bind (more_of_step step) fun _ _ _ => .pure)

theorem readUnary_endAlike :
    (readUnary rules).EndAlike tokens tokens.tail (readUnary rules') := by
  refine .current_bind (.ite (fun isPrefix => ?_) fun _ => checkStep_bind_endAlike (.ite (fun step => ?_)
    fun _ => readPostfix_endAlike h))
  · refine .advance_bind (more_of_isPrefixOperator isPrefix) fun rest within _ => ?_
    exact ((h .unary rest trivial within).bind fun _ _ _ => .pure).loose
  · refine .advance_bind (more_of_step step) fun rest within _ => ?_
    exact ((h .unary rest trivial within).bind fun _ _ _ => .ite (fun _ => .pure) fun _ =>
      .fail).loose

theorem readOperators_endAlike {least n : Nat} {left : Node} (bound : tokens.length ≤ n) :
    (readOperators rules least start n left).EndAlike tokens tokens
      (readOperators rules' least start n left) := by
  induction n generalizing tokens left with
  | zero => exact .of_length_le_zero bound
  | succ n ih =>
    rw [readOperators, readOperators]
    refine .current_bind ?_
    cases operator : precedence? (head tokens) with
    | none => exact .pure
    | some precedence =>
      refine .ite (fun _ => .pure) fun _ => .loose ?_
      refine .advance_bind (more_of_precedence? operator) fun rest within _ => ?_
      refine ((h (.binary _) rest trivial within).bind fun right rest' within' => ?_).loose
      have behind := suffix_of_tail within' within
      exact ih (h.behind behind) (EndAlike.length_tail_le bound behind)

theorem readBinary_endAlike {least : Nat} :
    (readBinary rules least).EndAlike tokens tokens.tail (readBinary rules' least) := by
  refine .current_bind ((readUnary_endAlike h).bind fun left rest within => .room_bind ?_)
  exact readOperators_endAlike (h.behind within) (Nat.le_refl _)

theorem readConditional_endAlike :
    (readConditional rules).EndAlike tokens tokens.tail (readConditional rules') := by
  refine .current_bind ((readBinary_endAlike h).bind fun test rest within => ?_)
  refine .accept_bind (by decide) (List.tail_suffix rest) (fun rest₁ within₁ => ?_) .pure
  have below₁ := suffix_of_tail within₁ within
  refine ((h.expression below₁).bind fun consequent rest₂ within₂ => ?_).loose
  refine ((EndAlike.expect (by decide)).bind fun _ rest₃ within₃ => ?_).loose
  have below₃ := suffix_of_tail within₃ (suffix_of_tail within₂ below₁)
  exact h.expression_pure below₃

omit h in
theorem Reader.current_bind_eq {next : Token → Reader β} :
    (current >>= next) tokens = next (head tokens) tokens := rfl

omit h in
/-- Looking for an arrow consumes nothing. -/
theorem checkArrow_bind_endAlike {next next' : Bool → Reader β} {limit : List Token}
    (more : ∀ b, (next b).EndAlike tokens limit (next' b)) :
    (checkArrow >>= next).EndAlike tokens limit (checkArrow >>= next') := by
  have looks : ∃ b, checkArrow tokens = .ok (b, tokens) := by
    unfold checkArrow
    rw [Reader.current_bind_eq]
    cases (head tokens).kind <;> exact ⟨_, rfl⟩
  obtain ⟨b, looks⟩ := looks
  have run (f : Bool → Reader β) : (checkArrow >>= f) tokens = f b tokens := by
    show (checkArrow tokens >>= fun result => f result.1 result.2) = f b tokens
    rw [looks]
    rfl
  unfold EndAlike
  rw [run, run]
  exact more b

/-- **Expressions end alike.** -/
theorem readExpression_endAlike :
    (readExpression rules).EndAlike tokens tokens.tail (readExpression rules') := by
  refine checkArrow_bind_endAlike fun isArrow => .ite (fun _ => readArrow_endAlike h) fun _ => ?_
  refine .current_bind ((readConditional_endAlike h).bind fun left rest within => ?_)
  refine .check_bind (.ite (fun assigns => .ite (fun _ => ?_) fun _ => .fail) fun _ => .pure)
  refine .loose (.advance_bind (more_of_found assigns (by decide)) fun rest' within' _ => ?_)
  have below := suffix_of_tail within' within
  exact h.expression_pure below

/-! ### Statements -/

omit h in
theorem readStatementEnd_ends : Ends tokens tokens readStatementEnd :=
  .accept_bind (by decide) (List.tail_suffix tokens) (fun _ _ => .pure)
    (.current_bind (.ite (fun _ => .pure) fun _ => .unexpected))

theorem readDeclarator_endAlike :
    (readDeclarator rules).EndAlike tokens tokens.tail (readDeclarator rules') := by
  refine (EndAlike.expect (by decide)).bind fun name rest within => .current_bind ?_
  refine .ite (fun assigns => .loose ?_) fun _ => .pure
  have assigns := (Bool.and_eq_true_iff.mp assigns).1
  refine .advance_bind (more_of_found assigns (by decide)) fun rest' within' _ => ?_
  exact h.expression_pure (suffix_of_tail within' within)

theorem readDeclaration_endAlike (more : (head tokens).kind ≠ .endOfText) :
    (readDeclaration rules).EndAlike tokens tokens.tail (readDeclaration rules') := by
  refine .advance_bind more fun rest within _ => .room_bind ?_
  refine (EndAlike.commaSeparated (Nat.le_refl _) fun rest' hr =>
    readDeclarator_endAlike (h.behind (hr.trans within))).bind fun _ _ _ => ?_
  exact readStatementEnd_ends.bind fun _ _ _ => .pure

theorem readFunctionDeclaration_endAlike (more : (head tokens).kind ≠ .endOfText) :
    (readFunctionDeclaration rules).EndAlike tokens tokens.tail (readFunctionDeclaration rules') := by
  refine .advance_bind more fun rest within _ => ?_
  refine ((EndAlike.expect (by decide)).bind fun name rest₁ within₁ => ?_).loose
  refine (readParams_ends.bind fun params rest₂ within₂ => ?_).loose
  have below := suffix_of_tail within₂ (suffix_of_tail within₁ within)
  exact ((readBlock_endAlike (h.behind below)).bind fun _ _ _ => .pure).loose

theorem readConditionalStatement_endAlike (more : (head tokens).kind ≠ .endOfText) :
    (readConditionalStatement rules).EndAlike tokens tokens.tail
      (readConditionalStatement rules') := by
  refine .advance_bind more fun rest within _ => ?_
  refine ((EndAlike.expect (by decide)).bind fun _ rest₁ within₁ => ?_).loose
  have below₁ := suffix_of_tail within₁ within
  refine ((h.expression below₁).bind fun test rest₂ within₂ => ?_).loose
  have below₂ := suffix_of_tail within₂ below₁
  refine ((EndAlike.expect (by decide)).bind fun _ rest₃ within₃ => ?_).loose
  have below₃ := suffix_of_tail within₃ below₂
  refine ((h.statement below₃).bind fun consequent rest₄ within₄ => ?_).loose
  have below₄ := suffix_of_tail within₄ below₃
  refine .accept_bind (by decide) (List.tail_suffix rest₄) (fun rest₅ within₅ => ?_) .pure
  exact ((h.statement (suffix_of_tail within₅ below₄)).bind fun _ _ _ => .pure).loose

theorem readReturn_endAlike (more : (head tokens).kind ≠ .endOfText) :
    (readReturn rules).EndAlike tokens tokens.tail (readReturn rules') := by
  refine .advance_bind more fun rest within _ => .current_bind (.ite (fun _ => ?_) fun _ => ?_)
  · exact readStatementEnd_ends.bind fun _ _ _ => .pure
  · refine ((h.expression within).bind fun _ _ _ => ?_).loose
    exact readStatementEnd_ends.bind fun _ _ _ => .pure

/-- **Statements end alike.** -/
theorem readStatement_endAlike :
    (readStatement rules).EndAlike tokens tokens.tail (readStatement rules') := by
  refine .current_bind ?_
  cases kind : (head tokens).kind with
  | leftBrace => exact readBlock_endAlike h
  | semicolon => exact .advance_bind (by rw [kind]; decide) fun _ _ _ => .pure
  | varWord => exact readDeclaration_endAlike h (by rw [kind]; decide)
  | letWord => exact readDeclaration_endAlike h (by rw [kind]; decide)
  | constWord => exact readDeclaration_endAlike h (by rw [kind]; decide)
  | functionWord => exact readFunctionDeclaration_endAlike h (by rw [kind]; decide)
  | ifWord => exact readConditionalStatement_endAlike h (by rw [kind]; decide)
  | returnWord => exact readReturn_endAlike h (by rw [kind]; decide)
  | _ =>
    exact (readExpression_endAlike h).bind fun _ _ _ =>
      readStatementEnd_ends.bind fun _ _ _ => .pure

end Below

/-! ## Texts -/

/-- What is granted to the tokens that pieces say is hardly more than the length of the text. -/
theorem Cuts.depthFor_le {allowed after : Bool} {t remainder : Text} {pieces : List SourcePiece}
    (cuts : Cuts allowed t pieces after remainder) (newline : Bool) :
    depthFor ((contents newline pieces).map tokenOf) ≤ t.length + 2 := by
  induction cuts generalizing newline with
  | done => exact Nat.le_add_left 2 _
  | @gap _ _ c rest _ n _ _ _ ih =>
    refine Nat.le_trans (ih _) (Nat.add_le_add_right ?_ 2)
    rw [List.length_drop]
    exact Nat.sub_le _ _
  | @token _ _ c rest _ kind n pieces found _ ih =>
    obtain ⟨pos, le, -⟩ := scan_recurs found
    have later := ih false
    have source : (tokenOf (kind, keptText kind ((c :: rest).take n), newline)).source
        = (c :: rest).take n :=
      scan_keeps found 0 0 newline
    have extent : (tokenOf (kind, keptText kind ((c :: rest).take n), newline)).extent = n := by
      unfold Token.extent
      rw [source, List.length_take_of_le le, Nat.max_eq_right pos]
    rw [List.length_drop, List.length_cons] at later
    rw [contents, List.map_cons, depthFor, extent, List.length_cons]
    omega

theorem depthFor_eq_of_content {tokens tokens' : List Token}
    (same : tokens.map Token.content = tokens'.map Token.content) :
    depthFor tokens = depthFor tokens' := by
  induction tokens generalizing tokens' with
  | nil =>
    cases tokens' with
    | nil => rfl
    | cons => cases same
  | cons t rest ih =>
    cases tokens' with
    | nil => cases same
    | cons t' rest' =>
      obtain ⟨here, later⟩ := List.cons.inj same
      obtain ⟨kind, text⟩ := Prod.mk.inj here
      obtain ⟨text, -⟩ := Prod.mk.inj text
      have extent : t.extent = t'.extent := by
        unfold Token.extent Token.source
        rw [show t.kind = t'.kind from kind, show t.text = t'.text from text]
      rw [depthFor, depthFor, extent, ih later]

/-- **The tokens of a text** are closed, and they are granted hardly more than its length. -/
theorem closed_of_tokenize {source : Text} {line : Int} {tokens : List Token}
    (h : tokenize source line = .ok tokens) :
    Closed tokens ∧ depthFor tokens ≤ source.length + 2 := by
  rcases tokenize_cases source line with
    ⟨pieces, after, cuts, same⟩ | ⟨pieces, after, remainder, cause, cuts, stuck, same⟩
  · constructor
    · obtain rfl := Except.ok.inj (h.symm.trans same)
      rw [LexState.emit, List.reverse_cons]
      exact ⟨_, List.getLast?_concat, rfl⟩
    · obtain ⟨tokens', same', said⟩ := cuts.tokenize_contents line
      obtain rfl := Except.ok.inj (h.symm.trans same')
      refine Nat.le_trans (Nat.le_of_eq (depthFor_eq_of_content ?_)) (cuts.depthFor_le false)
      rw [said, List.map_map]
      exact (List.map_id _).symm
  · cases h.symm.trans same

theorem readFragment_endAlike {source : Text} {line : Int}
    (h : ∀ inner, depthFor inner ≤ source.length + 2 → rules.EndAlikeBelow inner rules') :
    (readFragment rules source line).EndAlike tokens tokens (readFragment rules' source line) := by
  unfold readFragment
  cases cut : tokenize source line with
  | error e => exact .throw nofun
  | ok inner =>
    obtain ⟨closed, enough⟩ := closed_of_tokenize cut
    have whole : (readWhole (readExpression rules)).EndAlike inner inner.tail
        (readWhole (readExpression rules')) :=
      (readExpression_endAlike (h inner enough)).bind fun _ _ _ =>
        .check_bind (.ite (fun _ => .pure) fun _ => .unexpected)
    obtain ⟨same, early, -⟩ := whole closed
    dsimp only
    rw [StateT.run, StateT.run, ← same]
    cases read : readWhole (readExpression rules) inner with
    | error e => exact .throw fun deep => early (by rw [read, deep])
    | ok result => exact .pure

end Rules

/-! ## The circle of rules -/

/-- The depth that a rule **needs** at some tokens. -/
def Rule.need : Rule → List Token → Nat
  | fragment source _, _ => source.length + 2
  | _, tokens => depthFor tokens

theorem Rule.need_pos (rule : Rule) (tokens : List Token) : 0 < rule.need tokens := by
  cases rule with
  | fragment source line => exact Nat.succ_pos _
  | _ => exact depthFor_pos tokens

/-- What is below some tokens needs less than they do. -/
theorem Rule.IsBelow.need_lt {tokens rest : List Token} {rule : Rule} (h : rule.IsBelow tokens rest)
    (some : rest ≠ []) : rule.need rest < depthFor tokens := by
  have behind (within : rest <:+ tokens.tail) : depthFor rest < depthFor tokens := by
    refine depthFor_lt_of_suffix_tail within fun none => some ?_
    rw [none] at within
    exact List.suffix_nil.mp within
  cases rule with
  | fragment source line => exact h
  | _ => exact behind h

/-- **Depths that are enough make no difference**, and what is read is read to its end. -/
theorem readRule_endAlike {depth depth' : Nat} {rule : Rule} {tokens : List Token}
    (readable : rule.IsReadable tokens) (enough : rule.need tokens ≤ depth)
    (enough' : rule.need tokens ≤ depth') :
    (readRule depth rule).EndAlike tokens (rule.limit tokens) (readRule depth' rule) := by
  -- By induction on the depth, for all rules together: the rules that a rule refers to are read
  -- to a depth that is less by one, and below the tokens they need less.
  induction depth generalizing depth' rule tokens with
  | zero => exact absurd (rule.need_pos tokens) (Nat.not_lt_of_le enough)
  | succ depth ih =>
    have pos := rule.need_pos tokens
    obtain ⟨depth', rfl⟩ : ∃ d, depth' = d + 1 := ⟨depth' - 1, by omega⟩
    have below {inner : List Token} (enough : depthFor inner ≤ depth + 1)
        (enough' : depthFor inner ≤ depth' + 1) :
        (readRule depth).EndAlikeBelow inner (readRule depth') := by
      intro rule rest readable isBelow closed
      have less := isBelow.need_lt (by rintro rfl; obtain ⟨t, last, -⟩ := closed; cases last)
      exact ih readable (by omega) (by omega) closed
    cases rule with
    | statement => exact readStatement_endAlike (below enough enough')
    | expression => exact readExpression_endAlike (below enough enough')
    | binary least => exact readBinary_endAlike (below enough enough')
    | unary => exact readUnary_endAlike (below enough enough')
    | construct => exact readConstruct_endAlike (below enough enough') readable
    | fragment source line =>
      exact readFragment_endAlike fun inner h =>
        below (Nat.le_trans h enough) (Nat.le_trans h enough')

/-! ## Programs -/

/-- A program that is closed is read alike to all depths that are enough. -/
theorem readProgram_endAlike {depth depth' : Nat} {tokens : List Token}
    (enough : depthFor tokens ≤ depth) (enough' : depthFor tokens ≤ depth') :
    (readProgram (readRule depth)).EndAlike tokens tokens (readProgram (readRule depth')) := by
  refine .current_bind (.room_bind (EndAlike.bind ?_ fun _ _ _ => .pure))
  refine .manyUntil (Nat.le_refl _) (fun _ _ => .check) fun rest within => ?_
  have less := depthFor_le_of_suffix within
  exact readRule_endAlike (show Rule.statement.IsReadable rest from trivial)
    (Nat.le_trans less enough) (Nat.le_trans less enough')

/-- A text that can be cut into tokens is read alike to all depths that are enough for these, and
none of them is used up. -/
theorem parseProgram_eq {source : Text} {tokens : List Token} {depth : Nat}
    (cut : tokenize source 1 = .ok tokens) (enough : depthFor tokens ≤ depth) :
    ((readProgram (readRule depth)).run tokens).map Prod.fst = parseProgram source
      ∧ parseProgram source ≠ .error .tooDeep := by
  obtain ⟨same, early, -⟩ :=
    readProgram_endAlike (Nat.le_refl _) enough (closed_of_tokenize cut).1
  unfold parseProgram
  rw [cut]
  dsimp only
  rw [parseTokens, StateT.run, StateT.run, ← same]
  refine ⟨rfl, fun deep => early ?_⟩
  cases read : readProgram (readRule (depthFor tokens)) tokens with
  | error e =>
    rw [read] at deep
    rw [Except.error.inj deep]
  | ok result =>
    rw [read] at deep
    cases deep

/-- **The depth to which a text is read is never used up.** -/
theorem parseProgram_ne_tooDeep (source : Text) : parseProgram source ≠ .error .tooDeep := by
  cases cut : tokenize source 1 with
  | error e =>
    unfold parseProgram
    rw [cut]
    exact nofun
  | ok tokens => exact (parseProgram_eq cut (Nat.le_refl _)).2

/-- The search for an arrow **stops at the end of the text**, whatever follows. -/
theorem arrowAhead_append {depth : Nat} {tokens : List Token}
    (ends : ∃ t ∈ tokens, t.kind = .endOfText) (more : List Token) :
    arrowAhead depth (tokens ++ more) = arrowAhead depth tokens := by
  induction tokens generalizing depth with
  | nil => obtain ⟨t, member, -⟩ := ends; cases member
  | cons t rest ih =>
    rw [List.cons_append, arrowAhead, arrowAhead]
    by_cases ended : (t.kind == .endOfText) = true
    · rw [if_pos ended, if_pos ended]
    have ends' : ∃ t ∈ rest, t.kind = .endOfText := by
      obtain ⟨t', member, kind⟩ := ends
      rcases List.mem_cons.mp member with rfl | member
      · exact absurd (beq_iff_eq.mpr kind) ended
      · exact ⟨t', member, kind⟩
    have first : (rest ++ more).head? = rest.head? := by
      obtain ⟨t', member, -⟩ := ends'
      obtain ⟨u, rest, rfl⟩ := List.exists_cons_of_ne_nil (List.ne_nil_of_mem member)
      rfl
    rw [ih ends', ih ends', ih ends', first]

/-- The number of code points that a scan takes. -/
def Scan.length : Scan → Nat
  | gap length => length
  | token _ length => length

/-- **A scan advances**, and not past the end of the text. -/
theorem scan_length {allowed : Bool} {c : CodePoint} {rest : Text} {scanned : Scan}
    (h : scan allowed c rest = .ok scanned) :
    0 < scanned.length ∧ scanned.length ≤ (c :: rest).length := by
  cases scanned with
  | gap n =>
    obtain ⟨pos, le, -⟩ := scan_isGap h
    exact ⟨pos, le⟩
  | token kind n =>
    obtain ⟨pos, le, -⟩ := scan_recurs h
    exact ⟨pos, le⟩

/-- **Every text is a program, or it has an error** of spelling or of grammar: the depth to which
it is read is never used up, and to any greater depth the same is read.

This is so because everything advances, on whatever texts and tokens. A scan takes at least one
code point. A rule leaves less than there was, where there is an end of the text, and to any
depths that are enough it does the same without giving up. The search for an arrow stops at the
end of the text. And the expressions of a template are shorter than its body. -/
theorem parseProgram_ends (source : Text) :
    ((∃ tree, parseProgram source = .ok tree ∧ tree.isOf .program = true)
        ∨ (∃ e, parseProgram source = .error (.lex e)) ∨ ∃ e, parseProgram source = .error (.parse e))
      ∧ (∀ tokens depth, tokenize source 1 = .ok tokens → depthFor tokens ≤ depth →
          ((readProgram (readRule depth)).run tokens).map Prod.fst = parseProgram source)
      ∧ (∀ allowed c rest scanned, scan allowed c rest = .ok scanned →
          0 < scanned.length ∧ scanned.length ≤ (c :: rest).length)
      ∧ (∀ depth depth' rule tokens, rule.IsReadable tokens → rule.need tokens ≤ depth →
          rule.need tokens ≤ depth' →
          (readRule depth rule).EndAlike tokens (rule.limit tokens) (readRule depth' rule))
      ∧ (∀ depth tokens more, Closed tokens →
          arrowAhead depth (tokens ++ more) = arrowAhead depth tokens)
      ∧ ∀ body parts, splitTemplate body = .ok parts →
          ∀ e ∈ parts.expressions, e.1.length < body.length := by
  refine ⟨?_, ?_, fun _ _ _ _ => scan_length, fun _ _ _ _ => readRule_endAlike, ?_, ?_⟩
  · cases answer : parseProgram source with
    | ok tree => exact .inl ⟨tree, rfl, (parseProgram_proper answer).sorted⟩
    | error e =>
      refine .inr ?_
      cases e with
      | lex e => exact .inl ⟨e, rfl⟩
      | parse e => exact .inr ⟨e, rfl⟩
      | tooDeep => exact absurd answer (parseProgram_ne_tooDeep source)
  · exact fun tokens depth cut enough => (parseProgram_eq cut enough).1
  · rintro depth tokens more ⟨t, last, kind⟩
    exact arrowAhead_append ⟨t, List.mem_of_getLast? last, kind⟩ more
  · intro body parts split e member
    have := length_of_mem_splitTemplateFrom split e member
    omega

end Scriptlet
