import Scriptlet.Proofs.Depth
import Scriptlet.Proofs.Readback.Lexing
import Scriptlet.Proofs.RoundTrip.Expression

/-!
# Reading displayed data as literals

The tokens of displayed data are read as a literal of the data: a name for undefined, a
minus sign before the numeral of a negative integer, an array with an element for every item
and an object with a property for every entry. No parentheses are put around the parts, so
each of them goes through all levels of expressions, and in each it is the token after it
that ends it.
-/

namespace Scriptlet

open Reader

/-! ## Literals of data -/

mutual

/-- A node **is a literal** of data, wherever it stands. -/
inductive Datum.Literal : Datum → Node → Prop
  | undefined (p : Option Position) (q : Position) :
    Datum.Literal .undefined (.branch .identifier p [.leaf .identifier "undefined" q])
  | null (p : Option Position) (q : Position) :
    Datum.Literal .null (.branch .literal p [.leaf .nullWord "null" q])
  | bool (b : Bool) (p : Option Position) (q : Position) :
    Datum.Literal (.bool b)
      (.branch .literal p [.leaf (if b then .trueWord else .falseWord) (boolText b) q])
  | natural {n : Int} (h : 0 ≤ n) (p : Option Position) (q : Position) :
    Datum.Literal (.int n) (.branch .literal p [.leaf .number (Text.ofNat n.natAbs) q])
  | negative {n : Int} (h : n < 0) (p p' : Option Position) (q q' : Position) :
    Datum.Literal (.int n) (.branch .unary p
      [.leaf .operator "-" q, .branch .literal p' [.leaf .number (Text.ofNat n.natAbs) q']])
  | text (t : Text) (p : Option Position) (q : Position) :
    Datum.Literal (.text t) (.branch .literal p [.leaf .string t.quoted q])
  | list {items : List Datum} {elements : List Node} (p : Option Position)
    (each : List.Forall₂ Datum.Literal items elements) :
    Datum.Literal (.list items) (.branch .array p elements)
  | object {entries : List (Text × Datum)} {properties : List Node} (p : Option Position)
    (each : List.Forall₂ Datum.LiteralEntry entries properties) :
    Datum.Literal (.object entries) (.branch .object p properties)

/-- A property is a literal of a key with data. -/
inductive Datum.LiteralEntry : Text × Datum → Node → Prop
  | word (key : Text) {d : Datum} {value : Node} (p : Option Position) (q : Position)
    (h : Datum.Literal d value) :
    Datum.LiteralEntry (key, d) (.branch .property p [.leaf .identifier key q, value])
  | quoted (key : Text) {d : Datum} {value : Node} (p : Option Position) (q : Position)
    (h : Datum.Literal d value) :
    Datum.LiteralEntry (key, d) (.branch .property p [.leaf .string key.quoted q, value])

end

/-! ## Single tokens -/

section Tokens

variable {P : Node → Prop} {rules : Rules} {t : Token} {rest : List Token}

/-- A token that is a literal by itself. -/
theorem readCallMember_reads_literal {kind : TokenKind} {label : Label} {text : Text}
    (found : literalLabel? kind = some label) (ht : t.kind.endsExpression = true)
    (made : ∀ p q, P (.branch .literal p [.leaf label text q])) :
    (readCallMember rules).Reads (.plain kind text :: t :: rest) P (t :: rest) := by
  have notNew : kind ≠ .newWord := by
    rintro rfl
    cases found
  refine readCallMember_reads (TokenKind.endsOperand_of_endsExpression ht) (readHead_reads notNew ?_)
  refine .current_bind fun start same => ?_
  rw [show literalLabel? start.kind = some label from (congrArg literalLabel? (congrArg Token.kind same)).trans found]
  refine .advance_bind (by simp) fun actual hactual => .pure ?_
  obtain rfl : actual.text = text := congrArg Token.text hactual
  exact made _ _

theorem opensOperand_of_literalLabel? {kind : TokenKind} {label : Label}
    (found : literalLabel? kind = some label) : kind.opensOperand = true := by
  cases kind <;> first | rfl | cases found

theorem readUnary_reads_literal {kind : TokenKind} {label : Label} {text : Text}
    (found : literalLabel? kind = some label) (ht : t.kind.endsExpression = true)
    (made : ∀ p q, P (.branch .literal p [.leaf label text q])) :
    (readUnary rules).Reads (.plain kind text :: t :: rest) P (t :: rest) :=
  readUnary_reads_callMember (opensOperand_of_literalLabel? found)
    (TokenKind.endsOperand_of_endsExpression ht) (readCallMember_reads_literal found ht made)

theorem readExpression_reads_literal {kind : TokenKind} {label : Label} {text : Text}
    (found : literalLabel? kind = some label) (ht : t.kind.endsExpression = true)
    (made : ∀ p q, P (.branch .literal p [.leaf label text q])) :
    (readExpression rules).Reads (.plain kind text :: t :: rest) P (t :: rest) := by
  have noArrow : kind ≠ .identifier ∧ kind ≠ .leftParen := by
    constructor <;> (rintro rfl; cases found)
  exact readExpression_reads_unary ht (checkArrow_reads noArrow.1 noArrow.2)
    (readUnary_reads_literal found ht made)

/-- A name. -/
theorem readExpression_reads_name {name : Text} (ht : t.kind.endsExpression = true)
    (made : ∀ p q, P (.branch .identifier p [.leaf .identifier name q])) :
    (readExpression rules).Reads (.plain .identifier name :: t :: rest) P (t :: rest) := by
  have noArrow : (t.kind == .arrow) = false := beq_eq_false_iff_ne.mpr (TokenKind.ne_of ht rfl)
  refine readExpression_reads_primary rfl nofun (noArrow ▸ checkArrow_reads_name rfl) ht ?_
  refine .current_bind fun start same => ?_
  rw [show start.kind = .identifier from congrArg Token.kind same]
  refine .advance_bind (by simp) fun actual hactual => .pure ?_
  obtain rfl : actual.text = name := congrArg Token.text hactual
  exact made _ _

/-- An integer, with its sign. -/
theorem readExpression_reads_int {depth : Nat} {n : Int} (hd : (intTokens n).length ≤ depth)
    (ht : t.kind.endsExpression = true) :
    (readExpression (readRule depth)).Reads (intTokens n ++ t :: rest) (Datum.int n).Literal
      (t :: rest) := by
  by_cases natural : 0 ≤ n
  · rw [intTokens, if_pos natural]
    exact readExpression_reads_literal rfl ht fun p q => .natural natural p q
  · rw [intTokens, if_neg natural] at hd ⊢
    cases depth with
    | zero => cases hd
    | succ depth =>
      have operand : (readRule (depth + 1) .unary).Reads
          (.plain .number (Text.ofNat n.natAbs) :: t :: rest)
          (fun operand => ∃ p q, operand = .branch .literal p [.leaf .number (Text.ofNat n.natAbs) q])
          (t :: rest) := readUnary_reads_literal rfl ht fun p q => ⟨p, q, rfl⟩
      refine readExpression_reads_unary ht (checkArrow_reads (by decide) (by decide)) ?_
      refine .current_bind fun start same => ?_
      have text : start.text = "-" := congrArg Token.text same
      rw [if_pos (show isPrefixOperator start = true from congrArg isPrefixOperator same)]
      refine .advance_bind (by simp) fun _ _ => operand.bind fun given hgiven => .pure ?_
      obtain ⟨p, q, rfl⟩ := hgiven
      rw [Node.ofToken, text]
      exact .negative (by omega) _ _ _ _

end Tokens

/-! ## Lists and objects -/

/-- Whether a token of some kind may come first among the tokens of data. -/
def TokenKind.opensData (kind : TokenKind) : Bool :=
  kind.opensOperand || kind == .operator

/-- Data have tokens, the first of which starts an expression. -/
theorem Datum.exists_tokens (d : Datum) :
    ∃ s more, d.tokens = s :: more ∧ s.kind.opensData = true := by
  cases d with
  | undefined =>
    rw [tokens]
    exact ⟨_, _, rfl, rfl⟩
  | null =>
    rw [tokens]
    exact ⟨_, _, rfl, rfl⟩
  | bool b =>
    rw [tokens]
    cases b <;> exact ⟨_, _, rfl, rfl⟩
  | int n =>
    rw [tokens, intTokens]
    split <;> exact ⟨_, _, rfl, rfl⟩
  | text t =>
    rw [tokens]
    exact ⟨_, _, rfl, rfl⟩
  | list items =>
    rw [tokens]
    exact ⟨_, _, rfl, rfl⟩
  | object entries =>
    rw [tokens]
    exact ⟨_, _, rfl, rfl⟩

/-- No part is longer than all of them with their separators, and there are no more parts than
tokens, if none is empty. -/
theorem length_le_separated (separator : Token) (as : List α) (parts : α → List Token) :
    (∀ a ∈ as, (parts a).length ≤ (separated separator (as.map parts)).length)
      ∧ ((∀ a ∈ as, parts a ≠ []) → as.length ≤ (separated separator (as.map parts)).length) := by
  have longer := length_flatten_le_separated separator (as.map parts)
  refine ⟨fun a ha => ?_, fun some => ?_⟩
  · exact Nat.le_trans (List.sublist_flatten_of_mem (List.mem_map_of_mem ha)).length_le longer
  · refine Nat.le_trans ?_ longer
    clear longer
    induction as with
    | nil => exact Nat.le_refl 0
    | cons a as ih =>
      obtain ⟨first, others⟩ := List.forall_mem_cons.mp some
      have := List.length_pos_iff.mpr first
      have := ih others
      rw [List.map_cons, List.flatten_cons, List.length_append, List.length_cons]
      omega

section Compound

variable {depth : Nat} {t : Token} {rest : List Token}

/-- Data **are read** by the rule for expressions, to any depth that suffices and before
whatever ends an expression. -/
def Datum.IsRead (d : Datum) : Prop :=
  ∀ depth t rest, d.tokens.length ≤ depth → t.kind.endsExpression = true →
    (readExpression (readRule depth)).Reads (d.tokens ++ t :: rest) d.Literal (t :: rest)

/-- One level deeper. -/
theorem Datum.IsRead.expression {d : Datum} (h : d.IsRead) (hd : d.tokens.length < depth)
    (ht : t.kind.endsExpression = true) :
    (readRule depth .expression).Reads (d.tokens ++ t :: rest) d.Literal (t :: rest) := by
  cases depth with
  | zero => exact absurd hd (Nat.not_lt_zero _)
  | succ depth => exact h depth t rest (Nat.le_of_lt_succ hd) ht

theorem endsExpression_of_comma_or {u : Token} (ht : t.kind.endsExpression = true)
    (h : u.kind = .comma ∨ u = t) : u.kind.endsExpression = true := by
  rcases h with h | rfl
  · rw [h]
    rfl
  · exact ht

theorem ne_nil_of_tokens (d : Datum) : d.tokens ≠ [] := by
  obtain ⟨s, more, same, -⟩ := d.exists_tokens
  rw [same]
  exact List.cons_ne_nil _ _

/-- The elements of a list go on with an expression, and a comma or the end. -/
theorem readElements_reads_next {rules : Rules} {n : Nat} {s : Token} {tokens left : List Token}
    {P : List Node → Prop} (hs : s.kind.opensData = true)
    (h : Reads (do
        let x ← readSpreadOrExpression rules
        separator .rightBracket
        return x :: (← readElements rules n)) (s :: tokens) P left) :
    (readElements rules (n + 1)).Reads (s :: tokens) P left :=
  .check_else (TokenKind.ne_of hs rfl) (.check_else (TokenKind.ne_of hs rfl) h)

theorem Datum.list_isRead {items : List Datum} (ih : ∀ d ∈ items, d.IsRead) :
    (Datum.list items).IsRead := by
  intro depth t rest hd ht
  rw [tokens] at hd ⊢
  obtain ⟨longest, most⟩ := length_le_separated TokenKind.comma.mark items fun d => d.tokens
  have many := most fun d _ => ne_nil_of_tokens d
  rw [length_between] at hd
  rw [between_append]
  refine readExpression_reads_primary rfl (by decide)
    (checkArrow_reads (by decide) (by decide)) ht ?_
  refine .current_bind fun start same => ?_
  rw [show start.kind = .leftBracket from congrArg Token.kind same]
  refine .expect_bind rfl (by simp) fun _ _ => .room_bind ?_
  refine Reads.bind (Reads.untilClosed (R := Literal) ?_ rfl (by decide)
    (fun n => .check_then rfl (.pure rfl)) (fun n s tokens P left hs => readElements_reads_next hs)
    (fun d _ => d.exists_tokens) fun d hmem u more hu => ?_)
    fun made each => .expect_bind rfl (by simp) fun _ _ => .pure (.list _ each)
  · simp only [List.length_append, List.length_cons]
    omega
  · have short := longest d hmem
    have ends : u.kind.endsExpression = true :=
      endsExpression_of_comma_or rfl hu
    have inner : (readRule depth .expression).Reads (d.tokens ++ u :: more) d.Literal (u :: more) :=
      (ih d hmem).expression (by omega) ends
    obtain ⟨s, front, same, hs⟩ := d.exists_tokens
    rw [same] at inner ⊢
    exact .check_else (TokenKind.ne_of hs rfl) inner

/-- A key stands for itself, without quotes or with them. -/
theorem readKey_reads_keyToken {rules : Rules} {key : Text} {u : Token} {more : List Token} :
    (readKey rules).Reads (keyToken key :: u :: more)
      (fun name => ∃ q, name = .leaf .identifier key q ∨ name = .leaf .string key.quoted q)
      (u :: more) := by
  unfold keyToken
  split
  · -- Any word will do, also one that means something elsewhere.
    have word := kindOfWord_isWord key
    refine .current_bind fun start same => ?_
    have kind : start.kind = kindOfWord key := congrArg Token.kind same
    rw [← kind] at word
    refine .accept_else (TokenKind.ne_of (kind ▸ word) rfl) ?_
    have notString : start.kind ≠ .string := TokenKind.ne_of word rfl
    have notNumber : start.kind ≠ .number := TokenKind.ne_of word rfl
    rw [if_neg (notString <| beq_iff_eq.mp ·), if_neg (notNumber <| beq_iff_eq.mp ·), if_pos word]
    refine .advance_bind (by simp) fun actual hactual => .pure ⟨actual.position, .inl ?_⟩
    obtain rfl : actual.text = key := congrArg Token.text hactual
    rfl
  · refine .current_bind fun start same => ?_
    refine .accept_else nofun ?_
    rw [show start.kind = .string from congrArg Token.kind same]
    refine .advance_bind (by simp) fun actual hactual => .pure ⟨actual.position, .inr ?_⟩
    obtain text : actual.text = key.quoted := congrArg Token.text hactual
    rw [Node.ofToken, text]

theorem readProperty_reads_entry {key : Text} {d : Datum} (h : d.IsRead)
    (hd : d.tokens.length < depth) (ht : t.kind.endsExpression = true) :
    (readProperty (readRule depth)).Reads
      (keyToken key :: TokenKind.colon.mark :: (d.tokens ++ t :: rest))
      (Datum.LiteralEntry (key, d)) (t :: rest) := by
  refine .start_bind fun start => readKey_reads_keyToken.bind fun name hname => ?_
  refine .accept_then rfl (by simp) ((h.expression hd ht).bind fun value hvalue => .pure ?_)
  obtain ⟨q, rfl | rfl⟩ := hname
  · exact .word key _ q hvalue
  · exact .quoted key _ q hvalue

theorem Datum.object_isRead {entries : List (Text × Datum)}
    (ih : ∀ entry ∈ entries, entry.2.IsRead) : (Datum.object entries).IsRead := by
  intro depth t rest hd ht
  rw [tokens] at hd ⊢
  obtain ⟨longest, most⟩ := length_le_separated TokenKind.comma.mark entries fun entry =>
    keyToken entry.1 :: TokenKind.colon.mark :: entry.2.tokens
  have many := most fun _ _ => List.cons_ne_nil _ _
  rw [length_between] at hd
  rw [between_append]
  refine readExpression_reads_primary rfl (by decide)
    (checkArrow_reads (by decide) (by decide)) ht ?_
  refine .current_bind fun start same => ?_
  rw [show start.kind = .leftBrace from congrArg Token.kind same]
  refine .expect_bind rfl (by simp) fun _ _ => .room_bind ?_
  have notClosed (key : Text) : (keyToken key).kind ≠ .rightBrace := by
    unfold keyToken
    split
    · exact TokenKind.ne_of (kindOfWord_isWord key) rfl
    · exact fun same => by cases same
  refine Reads.bind (Reads.untilClosed (R := LiteralEntry) ?_ rfl (by decide)
    (fun n => .check_then rfl (.pure rfl)) (fun n s tokens P left hs h => .check_else hs h)
    (fun entry _ => ⟨_, _, rfl, notClosed entry.1⟩) fun entry hmem u more hu => ?_)
    fun made each => .expect_bind rfl (by simp) fun _ _ => .pure (.object _ each)
  · simp only [List.length_append, List.length_cons]
    omega
  · have short := longest entry hmem
    rw [List.length_cons, List.length_cons] at short
    exact readProperty_reads_entry (ih entry hmem) (by omega)
      (endsExpression_of_comma_or rfl hu)

end Compound

/-- **The tokens of data are read as a literal of the data.** -/
theorem Datum.isRead (d : Datum) : d.IsRead := by
  induction d with
  | undefined =>
    intro depth t rest _ ht
    rw [tokens]
    exact readExpression_reads_name ht .undefined
  | null =>
    intro depth t rest _ ht
    rw [tokens]
    exact readExpression_reads_literal rfl ht .null
  | bool b =>
    intro depth t rest _ ht
    rw [tokens]
    cases b
    · exact readExpression_reads_literal rfl ht (.bool false)
    · exact readExpression_reads_literal rfl ht (.bool true)
  | int n =>
    intro depth t rest hd ht
    rw [tokens] at hd ⊢
    exact readExpression_reads_int hd ht
  | text s =>
    intro depth t rest _ ht
    rw [tokens]
    exact readExpression_reads_literal rfl ht (.text s)
  | list items ih => exact list_isRead ih
  | object entries ih => exact object_isRead ih

/-! ## The program -/

/-- The brackets of data are in pairs. -/
theorem Datum.passedOver_tokens (d : Datum) : PassedOver d.tokens := by
  have parts {α : Type} {as : List α} {part : α → List Token} (h : ∀ a ∈ as, PassedOver (part a)) :
      ∀ p ∈ as.map part, PassedOver p := by
    intro p hp
    obtain ⟨a, ha, rfl⟩ := List.mem_map.mp hp
    exact h a ha
  induction d with
  | undefined =>
    rw [tokens]
    exact .cons rfl .nil
  | null =>
    rw [tokens]
    exact .cons rfl .nil
  | bool b =>
    rw [tokens]
    cases b <;> exact .cons rfl .nil
  | int n =>
    rw [tokens, intTokens]
    split
    · exact .cons rfl .nil
    · exact .cons rfl (.cons rfl .nil)
  | text t =>
    rw [tokens]
    exact .cons rfl .nil
  | list items ih =>
    rw [tokens]
    exact .between rfl rfl (.separated rfl (parts ih))
  | object entries ih =>
    rw [tokens]
    refine .between rfl rfl (.separated rfl (parts fun entry hentry => ?_))
    have key : (keyToken entry.1).kind.isNeutral = true := by
      unfold keyToken
      split
      · have word := kindOfWord_isWord entry.1
        show (kindOfWord entry.1).isNeutral = true
        revert word
        cases kindOfWord entry.1 <;> first | exact fun _ => rfl | exact fun word => by cases word
      · rfl
    exact .cons key (.cons rfl (ih entry hentry))

/-- The end of the text ends a statement. -/
theorem readStatementEnd_reads_end :
    readStatementEnd.Reads [TokenKind.endOfText.mark] (fun _ => True) [TokenKind.endOfText.mark] := by
  refine .accept_else nofun (.current_bind fun actual same => ?_)
  rw [show actual.kind = .endOfText from congrArg Token.kind same]
  exact .pure trivial

/-- A statement that is data in parentheses, and ends with the text. -/
theorem Datum.readStatement_reads (d : Datum) {depth : Nat} (hd : d.tokens.length < depth) :
    (readStatement (readRule depth)).Reads
      (between .leftParen .rightParen d.tokens ++ [TokenKind.endOfText.mark])
      (fun made => ∃ q n, made = .branch .expressionStatement q [n] ∧ d.Literal n)
      [TokenKind.endOfText.mark] := by
  have noArrow : checkArrow.Reads
      (between .leftParen .rightParen d.tokens ++ [TokenKind.endOfText.mark]) (· = false)
      (between .leftParen .rightParen d.tokens ++ [TokenKind.endOfText.mark]) :=
    checkArrow_reads_parens d.passedOver_tokens
  have primary : (readPrimary (readRule depth)).Reads
      (between .leftParen .rightParen d.tokens ++ [TokenKind.endOfText.mark]) d.Literal
      [TokenKind.endOfText.mark] :=
    readPrimary_reads_parens (d.isRead.expression hd rfl)
  have expression : (readExpression (readRule depth)).Reads
      (between .leftParen .rightParen d.tokens ++ [TokenKind.endOfText.mark]) d.Literal
      [TokenKind.endOfText.mark] := by
    rw [between_append] at noArrow primary ⊢
    exact readExpression_reads_primary rfl nofun noArrow rfl primary
  rw [between_append] at expression ⊢
  refine .current_bind fun start same => ?_
  rw [show start.kind = .leftParen from congrArg Token.kind same]
  exact expression.bind fun n hn => readStatementEnd_reads_end.bind fun _ _ => .pure ⟨_, n, rfl, hn⟩

/-- **Data in parentheses are read as a program** of one statement, a literal of the data. -/
theorem Datum.parseTokens_eq {d : Datum} {tokens : List Token}
    (same : tokens.map Token.unplaced
      = between .leftParen .rightParen d.tokens ++ [TokenKind.endOfText.mark]) :
    ∃ p q n, parseTokens tokens = .ok (.branch .program p [.branch .expressionStatement q [n]])
      ∧ d.Literal n := by
  have length : tokens.length = d.tokens.length + 3 := by
    rw [← List.length_map Token.unplaced, same, List.length_append, length_between]
    rfl
  have deep := length_lt_depthFor tokens
  obtain ⟨depth, hdepth⟩ : ∃ depth, depthFor tokens = depth + 1 := ⟨depthFor tokens - 1, by omega⟩
  have statement := d.readStatement_reads (show d.tokens.length < depth by omega)
  have room : ∃ more, (between .leftParen .rightParen d.tokens ++ [TokenKind.endOfText.mark]).length
      = more + 2 := ⟨d.tokens.length + 1, by simp⟩
  have reads : (readProgram (readRule (depth + 1))).Reads
      (between .leftParen .rightParen d.tokens ++ [TokenKind.endOfText.mark])
      (fun made => ∃ p q n, made = .branch .program p [.branch .expressionStatement q [n]] ∧ d.Literal n)
      [TokenKind.endOfText.mark] := by
    refine .start_bind fun start => .room_bind ?_
    obtain ⟨more, hmore⟩ := room
    rw [hmore]
    rw [between_append] at statement ⊢
    -- One round for the statement, another that finds the end.
    have rounds : (manyUntil (check .endOfText) (readRule (depth + 1) .statement) (more + 2)).Reads
        (TokenKind.leftParen.mark ::
          (d.tokens ++ TokenKind.rightParen.mark :: [TokenKind.endOfText.mark]))
        (fun made => ∃ q n, made = [.branch .expressionStatement q [n]] ∧ d.Literal n)
        [TokenKind.endOfText.mark] := by
      refine .check_else nofun (Reads.bind statement ?_)
      rintro _ ⟨q, n, rfl, hn⟩
      refine Reads.bind (Q := (· = [])) (.check_then rfl (.pure rfl)) ?_
      rintro _ rfl
      exact .pure ⟨q, n, rfl, hn⟩
    refine rounds.bind ?_
    rintro _ ⟨q, n, rfl, hn⟩
    exact .pure ⟨_, q, n, rfl, hn⟩
  rw [← hdepth] at reads
  obtain ⟨made, left, hrun, hmade, -⟩ := reads tokens same
  obtain ⟨p, q, n, rfl, hn⟩ := hmade
  refine ⟨p, q, n, ?_, hn⟩
  show Except.map Prod.fst (readProgram (readRule (depthFor tokens)) tokens) = .ok _
  rw [hrun]
  rfl

end Scriptlet
