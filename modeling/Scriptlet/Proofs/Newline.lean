import Scriptlet.Proofs.Newline.Statement

/-!
# A newline works like a semicolon

A semicolon that ends a statement may be deleted if a line is made to end in its place, and in
front of a closing brace or the end of the text it may be deleted without that. The program that
the tokens form stays the same, down to the places in it. The exceptions are tokens that could go
on with the statement on the next line: another semicolon, which would be consumed instead, and
brackets, templates and operators.

What is left to do is to close the circle of rules. The reading without the semicolon is granted a
smaller depth, by what the semicolon weighs; it is enough, because a semicolon that ends a statement
is never what a rule is granted its depth for.
-/

namespace Scriptlet

open Reader Seam

namespace Seam

variable {e : Seam}

/-! ## The circle of rules -/

theorem fails_expression (depth : Nat) : e.Fails (readRuleBut e.written.length depth .expression) := by
  cases depth with
  | zero => exact ⟨_, rfl⟩
  | succ depth => exact fails_readExpression

theorem refuses_statement (depth : Nat) :
    e.Fails (readRuleBut e.written.length depth .statement) := by
  cases depth with
  | zero => exact ⟨_, rfl⟩
  | succ depth =>
    have fails : e.Fails (Reader.unexpected : Reader Node) := ⟨_, rfl⟩
    unfold Fails
    rw [readRuleBut, room_bind_eq, if_pos (beq_self_eq_true _)]
    exact fails

/-- A text of its own is read without regard to the tokens at hand. -/
theorem readFragment_eq {rules : Rules} {source : Text} {line : Int} (tokens : List Token) :
    readFragment rules source line tokens
      = (readFragment rules source line [Token.missing]).map fun read => (read.1, tokens) := by
  unfold readFragment
  cases tokenize source line with
  | error cause => rfl
  | ok inner =>
    dsimp only
    cases (readWhole (readExpression rules)).run inner <;> rfl

theorem readFragment_follows {depth depth' : Nat} {source : Text} {line : Int}
    {tokens tokens' : List Token} (beside : e.Beside tokens tokens')
    (enough : source.length + 2 ≤ depth + 1) (enough' : source.length + 2 ≤ depth' + 1) :
    e.Follows tokens tokens' tokens' (readFragment (readRule depth) source line)
      (readFragment (readRule depth') source line) := by
  have closed : Closed [Token.missing] := ⟨Token.missing, rfl, rfl⟩
  have readable : (Rule.fragment source line).IsReadable [Token.missing] := trivial
  obtain ⟨same, -, -⟩ := readRule_endAlike readable enough enough' closed
  replace same : readFragment (readRule depth) source line [Token.missing]
    = readFragment (readRule depth') source line [Token.missing] := same
  intro n left hrun
  rw [readFragment_eq, same] at hrun
  cases read : readFragment (readRule depth') source line [Token.missing] with
  | error cause =>
    rw [read] at hrun
    cases hrun
  | ok result =>
    rw [read] at hrun
    cases hrun
    refine ⟨tokens', beside, List.suffix_rfl, fun _ => ?_⟩
    rw [readFragment_eq, read]
    rfl

/-- **The rules of the second reading follow those of the first**, which start no statement at the
semicolon. The second reading needs no more depth than its own tokens are granted, the first may
have more. -/
theorem readRuleBut_follows (more depth : Nat) :
    (∀ rule left left', rule ≠ .statement → e.Beside left left' → rule.IsReadable left →
      rule.need left' ≤ depth → e.Follows left left' (rule.limit left')
        (readRuleBut e.written.length (depth + more) rule) (readRule depth rule))
      ∧ ∀ left left', e.Near left left' → depthFor left' ≤ depth → e.Settles left left' left'.tail
        (readRuleBut e.written.length (depth + more) .statement) (readRule depth .statement) := by
  -- By induction on the depth, for all rules together, as for the end of readings: what a rule
  -- refers to needs less.
  induction depth with
  | zero =>
    refine ⟨fun rule _ left' _ _ _ enough => ?_, fun _ left' _ enough => ?_⟩
    · exact absurd (rule.need_pos left') (Nat.not_lt_of_le enough)
    · exact absurd (depthFor_pos left') (Nat.not_lt_of_le enough)
  | succ depth ih =>
    obtain ⟨follows, settles⟩ := ih
    rw [Nat.add_right_comm]
    have below {inner : List Token} (enough : depthFor inner ≤ depth + 1) : e.FollowsBelow inner
        (readRuleBut e.written.length (depth + more)) (readRule depth) := by
      refine ⟨fun rule left left' inner beside readable isBelow => ?_, fun left left' near behind => ?_,
        fails_expression _, refuses_statement _⟩
      · have less := isBelow.need_lt beside.ne_nil
        exact follows rule left left' inner beside readable (by omega)
      · have isBelow : Rule.statement.IsBelow inner left' := behind
        have less := isBelow.need_lt near.ne_nil
        exact settles left left' near (Nat.le_of_lt_succ (Nat.lt_of_lt_of_le less enough))
    constructor
    · intro rule left left' inner beside readable enough
      cases rule with
      | statement => exact absurd rfl inner
      | expression => exact readExpression_follows (below enough) beside
      | binary least => exact readBinary_follows (below enough) beside
      | unary => exact readUnary_follows (below enough) beside
      | construct =>
        have inside := beside.inside_of_found (beq_iff_eq.mpr readable) (by decide)
        exact readConstruct_follows (below enough) inside readable
      | fragment source line =>
        refine readFragment_follows beside ?_ enough
        exact Nat.le_trans enough (by omega)
    · intro left left' near enough n behind hrun
      rw [readRuleBut, room_bind_eq] at hrun
      split at hrun
      · cases hrun
      · exact readStatement_settles (below enough) near n behind hrun

/-! ## Programs -/

/-- Without the semicolon, less depth is granted. -/
theorem depthFor_written (e : Seam) (front : List Token) :
    depthFor (front ++ e.written) = depthFor (front ++ e.implied) + e.semicolon.extent := by
  induction front with
  | nil =>
    have extent : e.next'.extent = e.next.extent := by rw [e.alike]; rfl
    rw [List.nil_append, List.nil_append, written, implied, depthFor, depthFor, depthFor, extent,
      Nat.add_comm]
  | cons t front ih =>
    rw [List.cons_append, List.cons_append, depthFor, depthFor, ih, Nat.add_assoc]

/-- **A program is the same without the semicolon** at a seam. -/
theorem parseTokens_implied (e : Seam) {front : List Token} {program : Node}
    (inside : ∀ t ∈ front, t.kind ≠ .endOfText)
    (spared : parseTokensBut e.written.length (front ++ e.written) = .ok program) :
    parseTokens (front ++ e.implied) = .ok program := by
  obtain ⟨statements, rest, read, rfl⟩ := statements_of_readProgram spared
  rw [depthFor_written] at read
  have looks : Looks (check .endOfText) := by
    intro tokens b left hrun
    cases hrun
    refine ⟨rfl, fun tokens' same => ?_⟩
    show Except.ok ((head tokens').kind == .endOfText, tokens') = _
    rw [same]
    rfl
  have goesOn (left : List Token) : check .endOfText e.written ≠ .ok (true, left) := by
    intro stopped
    have ended : (e.semicolon.kind == .endOfText) = true := congrArg (·.1) (Except.ok.inj stopped)
    cases (semicolon_ne (by decide)).symm.trans ended
  cases front with
  | nil =>
    obtain ⟨cause, stuck⟩ := fails_manyUntil looks goesOn (refuses_statement _) _
    cases stuck.symm.trans read
  | cons u front =>
    have within : e.Inside (u :: front ++ e.written) (u :: front ++ e.implied) := .ahead u front inside
    obtain ⟨stopped, rest', near, -, same⟩ := manyUntil_settles (.inside within) (Nat.le_refl _) looks
      goesOn (refuses_statement _) (fun left left' near behind =>
        (readRuleBut_follows _ _).2 left left' near (depthFor_le_of_suffix behind)) read
    have apart : e.IsApart := by
      have ended : (head rest).kind = .endOfText :=
        beq_iff_eq.mp (congrArg (·.1) (Except.ok.inj stopped))
      cases near with
      | past =>
        unfold IsApart
        rw [show e.next.kind = .endOfText from ended]
        decide
      | inside h =>
        cases h with
        | ahead v front noEnd => exact absurd ended (noEnd v List.mem_cons_self)
        | behind _ _ apart => exact apart
    unfold parseTokens readProgram
    rw [StateT.run, Reader.current_bind_eq, room_bind_eq, Reader.bind_eq_of_ok (same apart), within.head_eq]
    rfl

end Seam

/-! ## The theorem -/

/-- **A newline works like a semicolon.** In tokens that form a program, take a semicolon that ends
a statement, and let the token that follows be neither another semicolon, nor an opening parenthesis
or bracket, nor a template or an operator. If the semicolon is left out and a line ends in its
place, the tokens form the same program; and if what follows is a closing brace or the end of the
text, they do so without the end of a line. -/
theorem newline_ends_statement {front rest : List Token} {semicolon t : Token} {program : Node}
    (parsed : parseTokens (front ++ semicolon :: t :: rest) = .ok program)
    (ends : EndsStatement front semicolon (t :: rest))
    (parted : t.kind ∉ [.semicolon, .leftParen, .leftBracket, .template, .operator]) :
    parseTokens (front ++ { t with newlineBefore := true } :: rest) = .ok program
      ∧ (t.kind = .rightBrace ∨ t.kind = .endOfText →
        parseTokens (front ++ t :: rest) = .ok program) := by
  have hasEnd : HasEnd (t :: rest) := by
    obtain ⟨u, member, ended⟩ := (balanced_of_parseTokens parsed).1 (by simp)
    rcases List.mem_append.mp member with before | behind
    · exact absurd ended (ends.inside u before)
    · rcases List.mem_cons.mp behind with rfl | behind
      · cases ends.isSemicolon.symm.trans ended
      · exact ⟨u, behind, ended⟩
  have seam {t' : Token} (alike : t' = { t with newlineBefore := t'.newlineBefore })
      (mayEnd : t'.kind = .rightBrace ∨ t'.kind = .endOfText ∨ t'.newlineBefore = true) :
      parseTokens (front ++ t' :: rest) = .ok program := by
    let e : Seam := ⟨semicolon, t, t', rest, ends.isSemicolon, parted, alike, mayEnd, hasEnd⟩
    exact e.parseTokens_implied ends.inside (ends.spared.trans parsed)
  refine ⟨seam rfl (.inr (.inr rfl)), fun mayEnd => seam rfl ?_⟩
  exact mayEnd.imp id .inl

/-- Two returns, of which the first has its semicolon replaced. -/
theorem newline_ends_statement_of_returns :
    let first : Token := ⟨.returnWord, "return", 1, 1, false⟩
    let semicolon : Token := ⟨.semicolon, ";", 1, 7, false⟩
    let second : Token := ⟨.returnWord, "return", 1, 8, false⟩
    let stop : Token := ⟨.endOfText, [], 1, 14, false⟩
    let program := Node.make .program
      [Node.make .returnStatement [] first, Node.make .returnStatement [] second] first
    parseTokens [first, semicolon, second, stop] = .ok program
      ∧ EndsStatement [first] semicolon [second, stop]
      ∧ second.kind ∉ [.semicolon, .leftParen, .leftBracket, .template, .operator]
      ∧ parseTokens [first, { second with newlineBefore := true }, stop] = .ok program := by
  intro first semicolon second stop program
  have parsed : parseTokens [first, semicolon, second, stop] = .ok program := rfl
  have spared : parseTokensBut 3 [first, semicolon, second, stop] = .ok program := rfl
  have ends : EndsStatement [first] semicolon [second, stop] :=
    ⟨rfl, by decide, spared.trans parsed.symm⟩
  have parted : second.kind ∉ [.semicolon, .leftParen, .leftBracket, .template, .operator] := by decide
  exact ⟨parsed, ends, parted, (@newline_ends_statement [first] [stop] semicolon second program parsed ends parted).1⟩

end Scriptlet
