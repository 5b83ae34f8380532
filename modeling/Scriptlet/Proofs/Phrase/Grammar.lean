import Scriptlet.Proofs.Phrase
import Scriptlet.Proofs.Phrase.Taking

/-!
# The readers and their phrases

What a reader gives is formed by phrases of the tokens that it takes, and these heed the ends of
lines: the tokens *spell* the node. The way to this goes along the grammar, one law a reader, and
the circle is closed by induction on the depth to which the rules are read.

Most readers make a branch of what their parts give, and tokens that leave no trace stand between
these. Those for which this is not all are the ones that have a sort of phrase of their own. The
three that look at the ends of lines do so in different places: behind an operand, behind a return
and, for arrows, in the search that goes ahead of the parameters.

Operators, members and calls are read in a loop that carries what is on their left. Behind the
tokens that spell this, those that the loop takes spell what it gives.
-/

namespace Scriptlet

open Reader

/-- What a **rule spells**: the node that it gives by the tokens that it takes. An expression in a
template is spelled by tokens of its own, and takes none of those at hand. -/
def Rule.Spells : Rule → List Token → Node → Prop
  | fragment source line, taken, n => taken = [] ∧ ∃ own last after,
    tokenize source line = .ok (own ++ last :: after) ∧ last.kind = .endOfText ∧ SpellAll own [n]
  | _, taken, n => Spell taken n

/-- Rules **spell** what they give. -/
def Rules.SpellOut (rules : Rules) : Prop :=
  ∀ rule tokens, rule.IsReadable tokens → (rules rule).Takes tokens rule.Spells

/-! ## Branches -/

section Branches

variable {xs ys : List Token} {ms ns : List Node} {m n : Node} {t start : Token} {kind : Kind}

/-- What spells the children spells a branch that is neither an arrow nor a return. -/
theorem SpellAll.make (start : Token) (free : kind ≠ .arrow ∧ kind ≠ .returnStatement)
    (h : SpellAll xs ns) :
    SpellAll xs [.make kind ns start] :=
  .branch start ⟨free.1, fun same => absurd same free.2⟩ h

theorem Spell.cons (first : Spell xs n) (second : SpellAll ys ns) : SpellAll (xs ++ ys) (n :: ns) :=
  first.all.append second

/-- Tokens that leave no trace may come last. -/
theorem SpellAll.close (h : SpellAll xs ns) (silent : t.kind.isSilent = true) :
    SpellAll (xs ++ [t]) ns := by
  simpa using h.append (.silent silent .nil)

/-- Tokens that leave no trace spell nothing. -/
theorem SpellAll.passed (silent : ∀ t ∈ xs, t.kind.isSilent = true) : SpellAll xs [] := by
  induction xs with
  | nil => exact .nil
  | cons t xs ih =>
    obtain ⟨here, more⟩ := List.forall_mem_cons.mp silent
    exact .silent here (ih more)

/-- A token and what follows on it spell a branch. -/
theorem Spell.make (start : Token) (free : kind ≠ .arrow ∧ kind ≠ .returnStatement)
    (h : SpellAll (t :: xs) ns) :
    Spell (t :: xs) (.make kind ns start) :=
  ⟨List.cons_ne_nil t xs, .make start free h⟩

/-- A name is spelled by its token. -/
theorem Spell.leaf (label : Label) (noArrow : t.kind ≠ .arrow) : Spell [t] (.ofToken label t) :=
  ⟨List.cons_ne_nil t [], .leaf label noArrow .nil⟩

/-- What spells the first child and what spells the others spell the branch. -/
theorem Spell.makeWith (first : Spell xs m) (start : Token)
    (free : kind ≠ .arrow ∧ kind ≠ .returnStatement) (h : SpellAll ys ns) :
    Spell (xs ++ ys) (.make kind (m :: ns) start) :=
  ⟨List.append_ne_nil_of_left_ne_nil first.1 _, .make start free (first.cons h)⟩

/-- Tokens **go on** from a node to another if, behind what spells the one, they spell the
other. -/
def GoesOn (n : Node) (tokens : List Token) (m : Node) : Prop :=
  ∀ before, Spell before n → Spell (before ++ tokens) m

theorem GoesOn.refl (n : Node) : GoesOn n [] n :=
  fun before spells => by rwa [List.append_nil]

theorem GoesOn.trans {k : Node} (first : GoesOn n xs m) (second : GoesOn m ys k) :
    GoesOn n (xs ++ ys) k := fun before spells => by
  rw [← List.append_assoc]
  exact second _ (first before spells)

/-- A branch goes on from its first child. -/
theorem GoesOn.make (start : Token) (free : kind ≠ .arrow ∧ kind ≠ .returnStatement)
    (h : SpellAll xs ns) :
    GoesOn n xs (.make kind (n :: ns) start) :=
  fun _ first => first.makeWith start free h

/-! ### Kinds -/

theorem ne_arrow_of_isWord (word : t.kind.isWord = true) : t.kind ≠ .arrow := by
  intro same
  rw [same] at word
  cases word

theorem ne_arrow_of_isPrefixOperator (h : isPrefixOperator t = true) : t.kind ≠ .arrow := by
  intro same
  rw [isPrefixOperator, same] at h
  cases h

theorem ne_arrow_of_precedence? {precedence : Nat} (h : precedence? t = some precedence) :
    t.kind ≠ .arrow := by
  intro same
  rw [precedence?, same] at h
  cases h

theorem ne_arrow_of_literal {label : Label} (h : literalLabel? t.kind = some label) :
    t.kind ≠ .arrow := by
  intro same
  rw [same] at h
  cases h

theorem isStep_of_checkStep (h : (t.kind == .increment || t.kind == .decrement) = true) :
    t.kind = .increment ∨ t.kind = .decrement :=
  (Bool.or_eq_true_iff.mp h).imp beq_iff_eq.mp beq_iff_eq.mp

end Branches

section Lists

variable {tokens : List Token} {item : Reader Node} {n : Nat} {kind : Kind}

theorem Reader.Takes.spellCommaList {close : TokenKind} (h : ∀ tokens, item.Takes tokens Spell) :
    (Reader.commaList close item n).Takes tokens SpellAll :=
  .commaList h .nil (fun _ _ spells => spells.all) fun _ _ _ _ _ spells isComma others =>
    spells.cons (.silent (by rw [isComma]; rfl) others)

theorem Reader.Takes.spellCommaSeparated (h : ∀ tokens, item.Takes tokens Spell) :
    (Reader.commaSeparated item n).Takes tokens SpellAll :=
  .commaSeparated h (fun _ _ spells => spells.all) fun _ _ _ _ _ spells isComma others =>
    spells.cons (.silent (by rw [isComma]; rfl) others)

theorem Reader.Takes.spellManyUntil {stop : Reader Bool}
    (hstop : ∀ tokens, stop.Takes tokens fun taken _ => taken = [])
    (h : ∀ tokens, item.Takes tokens Spell) :
    (Reader.manyUntil stop item n).Takes tokens SpellAll :=
  .manyUntil hstop h .nil fun _ _ _ _ spells others => spells.cons others

/-- Behind its first token, what is enclosed **spells a branch** with its last. -/
theorem Reader.Takes.spellEnclosed {list : Reader (List Node)} {opening : Token}
    {closing : TokenKind} (h : list.Takes tokens SpellAll)
    (opens : opening.kind.isSilent = true) (closes : closing.isSilent = true)
    (free : kind ≠ .arrow ∧ kind ≠ .returnStatement) :
    Takes tokens (fun taken => Spell (opening :: taken))
      (list >>= fun ns => Reader.expect closing >>= fun _ =>
        Pure.pure (Node.make kind ns opening)) := by
  refine h.bind fun taken ns rest _ spells => ?_
  refine .expect_bind (by rintro rfl; cases closes) fun t _ _ isClosing => .pure ?_
  exact .make opening free (.silent opens (spells.close (by rw [isClosing]; exact closes)))

end Lists

/-! ## Expressions -/

section Rules

variable {rules : Rules} {tokens : List Token} {t start : Token}

theorem readParams_spells : readParams.Takes tokens Spell := by
  refine .expect_bind (by decide) fun opening rest _ opens => .room_bind fun _ => ?_
  refine Takes.spellEnclosed (.spellCommaList fun inner => ?_) (by rw [opens]; rfl) rfl (by decide)
  refine .map ((Takes.expect (by decide)).mono ?_)
  rintro _ t ⟨rfl, isName⟩
  exact .leaf .identifier (by rw [isName]; decide)

variable (h : rules.SpellOut)
include h

theorem Rules.SpellOut.expression (tokens : List Token) : (rules .expression).Takes tokens Spell :=
  h .expression tokens trivial

theorem Rules.SpellOut.statement (tokens : List Token) : (rules .statement).Takes tokens Spell :=
  h .statement tokens trivial

/-! ### Templates -/

theorem readTemplateParts_pieces {chunks : List Text} {expressions : List (Text × Nat)} :
    (readTemplateParts rules t chunks expressions).Takes tokens fun taken ns =>
      taken = [] ∧ ArePieces ns := by
  induction chunks generalizing expressions tokens with
  | nil => exact .pure ⟨rfl, .nil⟩
  | cons chunk chunks ih =>
    unfold readTemplateParts
    cases expressions with
    | nil =>
      refine ih.bind ?_
      rintro _ ns rest - ⟨rfl, pieces⟩
      exact .pure ⟨rfl, pieces.chunk chunk t⟩
    | cons e expressions =>
      refine (h (.fragment _ _) tokens trivial).bind ?_
      rintro _ n rest - ⟨rfl, own, last, after, cut, ended, spells⟩
      refine ih.bind ?_
      rintro _ ns rest - ⟨rfl, pieces⟩
      exact .pure ⟨rfl, (pieces.fragment cut rfl ended spells).chunk chunk t⟩

theorem readTemplate_spells (isTemplate : t.kind = .template) :
    (readTemplate rules t).Takes tokens fun taken n => taken = [] ∧ Spell [t] n := by
  unfold readTemplate
  split
  · exact .throw
  · refine (readTemplateParts_pieces h).bind ?_
    rintro _ ns rest - ⟨rfl, pieces⟩
    exact .pure ⟨rfl, List.cons_ne_nil _ _, .template isTemplate pieces⟩

/-! ### Functions -/

theorem readBlock_spells : (readBlock rules).Takes tokens Spell := by
  refine .expect_bind (by decide) fun opening rest _ opens => .room_bind fun _ => ?_
  refine Takes.spellEnclosed (.spellManyUntil (fun _ => ?_) h.statement) (by rw [opens]; rfl)
    rfl (by decide)
  exact .check_bind (.ite (fun _ => .unexpected) fun _ => .check)

theorem readFunction_spells (word : (head tokens).kind = .functionWord) :
    (readFunction rules).Takes tokens Spell := by
  refine .advance_bind (by rw [word]; decide) fun t rest _ same => ?_
  have isWord : t.kind = .functionWord := by rw [same, word]
  have readName : readName?.Takes rest fun taken name =>
      taken = name.toList ∧ ∀ name ∈ taken, name.kind = .identifier := by
    refine .check_bind (.ite (fun found => .map ?_) fun _ => .pure ⟨rfl, List.forall_mem_nil _⟩)
    refine (Takes.advance (more_of_found found (by decide))).mono ?_
    rintro _ name ⟨rfl, rfl⟩
    exact ⟨rfl, List.forall_mem_singleton.mpr (beq_iff_eq.mp found)⟩
  refine readName.bind ?_
  rintro _ name rest - ⟨rfl, isName⟩
  refine readParams_spells.bind fun params m rest _ hparams => ?_
  refine (readBlock_spells h).bind fun body n rest _ hbody => .pure ?_
  have both : SpellAll (params ++ (body ++ [])) [m, n] := hparams.cons (hbody.cons .nil)
  cases name with
  | none =>
    exact .make t (by decide) (.silent (by rw [isWord]; rfl) both)
  | some name =>
    exact ⟨List.cons_ne_nil _ _, .named isWord (isName name List.mem_cons_self) both⟩

/-! ### Arrows -/

omit h in
/-- Names and commas are passed over in the search for an arrow. -/
theorem arrowAhead_cons_of_name {rest : List Token}
    (h : t.kind = .identifier ∨ t.kind = .comma) :
    arrowAhead 1 (t :: rest) = arrowAhead 1 rest := by
  rw [arrowAhead]
  rcases h with isName | isComma
  · simp [isName, TokenKind.isOpener, TokenKind.isCloser]
  · simp [isComma, TokenKind.isOpener, TokenKind.isCloser]

omit h in
/-- The search for an arrow comes out behind the parameters. -/
theorem readParams_passedOver : readParams.Takes tokens fun taken _ =>
    ∀ rest, arrowAhead 0 (taken ++ rest) =
      rest.head?.any fun next => next.kind == .arrow && !next.newlineBefore := by
  -- Between the brackets there are names and commas, which neither open nor close.
  have names (n : Nat) (inner : List Token) :
      (commaList .rightParen (Node.ofToken .identifier <$> Reader.expect .identifier) n).Takes
        inner fun taken _ => ∀ rest, arrowAhead 1 (taken ++ rest) = arrowAhead 1 rest := by
    refine Takes.commaList (Q := fun taken _ => ∃ t, taken = [t] ∧ t.kind = .identifier)
      (fun _ => .map ((Takes.expect (by decide)).mono ?_)) (fun _ => rfl) ?_ ?_
    · rintro _ t ⟨rfl, isName⟩
      exact ⟨t, rfl, isName⟩
    · rintro _ _ ⟨t, rfl, isName⟩ rest
      exact arrowAhead_cons_of_name (.inl isName)
    · rintro _ _ comma more _ ⟨t, rfl, isName⟩ isComma others rest
      exact (arrowAhead_cons_of_name (.inl isName)).trans
        ((arrowAhead_cons_of_name (.inr isComma)).trans (others rest))
  refine .expect_bind (by decide) fun opening _ _ opens => .room_bind fun n => ?_
  refine (names n _).bind fun taken _ _ _ passed => ?_
  refine .expect_bind (by decide) fun closing _ _ closes => .pure fun rest => ?_
  have enters (ts : List Token) : arrowAhead 0 (opening :: ts) = arrowAhead 1 ts := by
    rw [arrowAhead]
    simp [opens, TokenKind.isOpener]
  have leaves : arrowAhead 1 (closing :: rest)
      = rest.head?.any fun next => next.kind == .arrow && !next.newlineBefore := by
    rw [arrowAhead]
    simp [closes, TokenKind.isOpener, TokenKind.isCloser]
  rw [List.cons_append, enters, List.append_assoc, passed]
  exact leaves

omit h in
/-- Parameters are a bare name, or the arrow behind them is not on a new line. -/
theorem readArrowParams_spells
    (arrows : (head tokens).kind = .identifier ∨ arrowAhead 0 tokens = true) :
    readArrowParams.Takes tokens fun taken n => Spell taken n
      ∧ ((∃ name, taken = [name] ∧ name.kind = .identifier)
        ∨ ∀ sign rest, tokens = taken ++ sign :: rest → sign.newlineBefore = false) := by
  refine .check_bind (.ite (fun found => ?_) fun missing => ?_)
  · refine .advance_bind (more_of_found found (by decide)) fun name rest _ same => .pure ?_
    have isName : name.kind = .identifier := by rw [same, beq_iff_eq.mp found]
    have spells : Spell [name] (.make .params [.ofToken .identifier name] name) :=
      .make name (by decide) (.leaf .identifier (by rw [isName]; decide) .nil)
    exact ⟨spells, .inl ⟨name, rfl, isName⟩⟩
  · refine (readParams_spells.and readParams_passedOver).mono fun taken n hn =>
      ⟨hn.1, .inr fun sign rest split => ?_⟩
    -- The search has found the sign where the parameters end, and there it heeds the line.
    have ahead := arrows.resolve_left fun isName => missing (beq_iff_eq.mpr isName)
    rw [split, hn.2] at ahead
    simpa using (Bool.and_eq_true_iff.mp ahead).2

theorem readArrowBody_spells : (readArrowBody rules).Takes tokens Spell :=
  .check_bind (.ite (fun _ => readBlock_spells h) fun _ => h.expression tokens)

/-- **Arrows**: the sign is on a new line only behind a bare name. -/
theorem readArrow_spells
    (arrows : (head tokens).kind = .identifier ∨ arrowAhead 0 tokens = true) :
    (readArrow rules).Takes tokens Spell := by
  refine .current_bind ((readArrowParams_spells arrows).bind ?_)
  rintro params m rest split ⟨hparams, heeds⟩
  refine .expect_bind (by decide) fun sign later split' isArrow => ?_
  refine (readArrowBody_spells h).bind fun body n _ _ hbody => .pure ?_
  refine ⟨List.append_ne_nil_of_left_ne_nil hparams.1 _, ?_⟩
  rw [List.append_nil]
  refine .arrow (head tokens) isArrow (fun newline => heeds.resolve_right fun sameLine => ?_)
    hparams.all hbody.all
  cases (sameLine sign later (by rw [split, split'])).symm.trans newline

/-! ### Arguments, members, lists and objects -/

theorem readSpreadOrExpression_spells : (readSpreadOrExpression rules).Takes tokens Spell := by
  refine .check_bind (.ite (fun found => ?_) fun _ => h.expression tokens)
  refine .advance_bind (more_of_found found (by decide)) fun t rest _ same => ?_
  refine (h.expression rest).bind fun taken n _ _ hn => .pure ?_
  exact .make t (by decide) (.silent (by rw [same, beq_iff_eq.mp found]; rfl) (hn.cons .nil))

theorem readArguments_spells : (readArguments rules).Takes tokens Spell :=
  .expect_bind (by decide) fun opening _ _ opens => .room_bind fun _ =>
    Takes.spellEnclosed (.spellCommaList fun _ => readSpreadOrExpression_spells h)
      (by rw [opens]; rfl) rfl (by decide)

omit h in
theorem readNamedMember_goesOn {object : Node} :
    (readNamedMember object start).Takes tokens (GoesOn object) := by
  refine .expect_bind (by decide) fun dot rest _ isDot => .current_bind (.ite (fun word => ?_)
    fun _ => .unexpected)
  refine .advance_bind (more_of_isWord word) fun name _ _ same => .pure ?_
  rw [← same] at word
  exact .make start (by decide)
    (.silent (by rw [isDot]; rfl) (.leaf .identifier (ne_arrow_of_isWord word) .nil))

theorem readComputedMember_goesOn {object : Node} :
    (readComputedMember rules object start).Takes tokens (GoesOn object) := by
  refine .expect_bind (by decide) fun opening rest _ opens => ?_
  refine (h.expression rest).bind fun taken key _ _ hkey => ?_
  refine .expect_bind (by decide) fun closing _ _ closes => .pure ?_
  exact .make start (by decide)
    (.silent (by rw [opens]; rfl) (hkey.cons (.silent (by rw [closes]; rfl) .nil)))

theorem readElements_spells {n : Nat} : (readElements rules n).Takes tokens SpellAll := by
  induction n generalizing tokens with
  | zero => exact .tooDeep
  | succ n ih =>
    rw [readElements]
    refine .check_bind (.ite (fun _ => .pure .nil) fun _ => .check_bind (.ite (fun found => ?_)
      fun _ => ?_))
    · refine .advance_bind (more_of_found found (by decide)) fun comma _ _ same => ?_
      refine ih.bind fun taken ns _ _ hns => .pure ?_
      have hole : Spell [comma] (.make .hole [] comma) :=
        .make comma (by decide) (.silent (by rw [same, beq_iff_eq.mp found]; rfl) .nil)
      rw [List.append_nil]
      exact hole.cons hns
    · refine (readSpreadOrExpression_spells h).bind fun taken m _ _ hm => ?_
      refine Takes.separator.bind fun commas _ _ _ areCommas => ?_
      refine ih.bind fun more ns _ _ hns => .pure ?_
      rw [List.append_nil]
      exact hm.cons (SpellAll.append
        (.passed fun t ht => by rw [areCommas t ht]; rfl) hns)

theorem readArray_spells : (readArray rules).Takes tokens Spell :=
  .expect_bind (by decide) fun opening _ _ opens => .room_bind fun _ =>
    Takes.spellEnclosed (readElements_spells h) (by rw [opens]; rfl) rfl (by decide)

/-- A key is spelled by its tokens; where they begin with a name, it is that name. -/
theorem readKey_spells : (readKey rules).Takes tokens fun taken n => Spell taken n
    ∧ ((head tokens).kind = .identifier →
      taken = [head tokens] ∧ n = .ofToken .identifier (head tokens)) := by
  have leaf (label : Label) (kind : TokenKind) (found : ((head tokens).kind == kind) = true)
      (noName : kind ≠ .identifier) (noArrow : kind ≠ .arrow) (more : kind ≠ .endOfText) :
      (Reader.advance >>= fun t => pure (Node.ofToken label t) : Reader Node).Takes tokens
        fun taken n => Spell taken n ∧ ((head tokens).kind = .identifier →
          taken = [head tokens] ∧ n = .ofToken .identifier (head tokens)) := by
    refine .advance_bind (more_of_found found more) fun t rest _ same => .pure ?_
    have isKind : (head tokens).kind = kind := beq_iff_eq.mp found
    exact ⟨.leaf label (by rwa [same, isKind]),
      fun isName => absurd (isKind.symm.trans isName) noName⟩
  refine .current_bind (.accept_bind (by decide) (fun opening rest same opens => ?_) fun _ => ?_)
  · refine .ite (fun _ => (h.expression rest).bind fun taken n _ _ hn => ?_) nofun
    refine .expect_bind (by decide) fun closing _ _ closes => .pure ⟨?_, fun isName => ?_⟩
    · exact .make _ (by decide)
        (.silent (by rw [opens]; rfl) (hn.all.close (by rw [closes]; rfl)))
    · rw [← same, opens] at isName
      cases isName
  · refine .ite nofun fun _ => .ite (fun found => ?_) fun _ => .ite (fun found => ?_) fun _ =>
      .ite (fun word => ?_) fun _ => .unexpected
    · exact leaf .string .string found (by decide) (by decide) (by decide)
    · exact leaf .number .number found (by decide) (by decide) (by decide)
    · refine .advance_bind (more_of_isWord word) fun t rest _ same => .pure ?_
      rw [← same] at word ⊢
      exact ⟨.leaf .identifier (ne_arrow_of_isWord word), fun _ => ⟨rfl, rfl⟩⟩

theorem readProperty_spells : (readProperty rules).Takes tokens Spell := by
  refine .current_bind ((readKey_spells h).bind ?_)
  rintro taken key rest - ⟨hkey, isItself⟩
  refine .accept_bind (by decide) (fun colon rest _ isColon => .ite (fun _ => ?_) nofun)
    fun _ => .ite nofun fun _ => .check_bind (.ite (fun _ => ?_) fun _ => ?_)
  · refine (h.expression rest).bind fun value n _ _ hn => .pure ?_
    exact hkey.makeWith _ (by decide) (.silent (by rw [isColon]; rfl) (hn.cons .nil))
  · refine readParams_spells.bind fun params m _ _ hm => ?_
    refine (readBlock_spells h).bind fun body n _ _ hn => .pure ?_
    have method : SpellAll (params ++ (body ++ [])) [.make .function [m, n] (head tokens)] :=
      .make _ (by decide) (hm.cons (hn.cons .nil))
    exact hkey.makeWith _ (by decide) method
  · refine .check_bind (.check_bind (.ite (fun allowed => .pure ?_) fun _ => .unexpected))
    have isName : (head tokens).kind = .identifier :=
      beq_iff_eq.mp (Bool.and_eq_true_iff.mp allowed).1
    obtain ⟨rfl, rfl⟩ := isItself isName
    exact ⟨List.cons_ne_nil _ _, .shorthand isName⟩

theorem readProperties_spells {n : Nat} : (readProperties rules n).Takes tokens SpellAll := by
  induction n generalizing tokens with
  | zero => exact .tooDeep
  | succ n ih =>
    rw [readProperties]
    refine .check_bind (.ite (fun _ => .pure .nil) fun _ => ?_)
    refine (readProperty_spells h).bind fun taken m _ _ hm => ?_
    refine Takes.separator.bind fun commas _ _ _ areCommas => ?_
    refine ih.bind fun more ns _ _ hns => .pure ?_
    rw [List.append_nil]
    exact hm.cons (SpellAll.append (.passed fun t ht => by rw [areCommas t ht]; rfl) hns)

theorem readObject_spells : (readObject rules).Takes tokens Spell :=
  .expect_bind (by decide) fun opening _ _ opens => .room_bind fun _ =>
    Takes.spellEnclosed (readProperties_spells h) (by rw [opens]; rfl) rfl (by decide)

/-! ### Primary expressions, members and calls -/

theorem readPrimary_spells : (readPrimary rules).Takes tokens Spell := by
  refine .current_bind ?_
  cases literal : literalLabel? (head tokens).kind with
  | some label =>
    refine .advance_bind (isFlat_of_literal literal).2 fun t rest _ same => .pure ?_
    exact .make _ (by decide) (.leaf label (by rw [same]; exact ne_arrow_of_literal literal) .nil)
  | none =>
    dsimp only
    cases kind : (head tokens).kind with
    | template =>
      refine .advance_bind (by rw [kind]; decide) fun t rest _ same => ?_
      refine (readTemplate_spells h (by rw [same, kind])).mono ?_
      rintro _ n ⟨rfl, spells⟩
      exact spells
    | identifier =>
      refine .advance_bind (by rw [kind]; decide) fun t rest _ same => .pure ?_
      exact .make _ (by decide) (.leaf .identifier (by rw [same, kind]; decide) .nil)
    | thisWord =>
      refine .advance_bind (by rw [kind]; decide) fun t rest _ same => .pure ?_
      exact .make _ (by decide) (.silent (by rw [same, kind]; rfl) .nil)
    | leftParen =>
      refine .advance_bind (by rw [kind]; decide) fun t rest _ same => ?_
      refine (h.expression rest).bind fun taken n _ _ hn => ?_
      refine .expect_bind (by decide) fun closing _ _ closes => .pure ?_
      exact ⟨List.cons_ne_nil _ _, .silent (by rw [same, kind]; rfl)
        (hn.all.close (by rw [closes]; rfl))⟩
    | leftBracket => exact readArray_spells h
    | leftBrace => exact readObject_spells h
    | functionWord => exact readFunction_spells h kind
    | _ => exact .unexpected

theorem readMembers_goesOn {n : Nat} {object : Node} :
    (readMembers rules start n object).Takes tokens (GoesOn object) := by
  induction n generalizing tokens object with
  | zero => exact .tooDeep
  | succ n ih =>
    rw [readMembers]
    refine .check_bind (.ite (fun _ => ?_) fun _ => .check_bind (.ite (fun _ => ?_)
      fun _ => .pure (.refl object)))
    · exact readNamedMember_goesOn.bind fun _ _ _ _ first => ih.mono fun _ _ => first.trans
    · exact (readComputedMember_goesOn h).bind fun _ _ _ _ first => ih.mono fun _ _ => first.trans

theorem readHead_spells {construct : Reader Node}
    (constructs : (head tokens).kind = .newWord → construct.Takes tokens Spell) :
    (readHead rules construct).Takes tokens Spell :=
  .check_bind (.ite (fun found => constructs (beq_iff_eq.mp found)) fun _ => readPrimary_spells h)

theorem readConstruct_spells (word : (head tokens).kind = .newWord) :
    (readConstruct rules).Takes tokens Spell := by
  refine .advance_bind (by rw [word]; decide) fun t rest _ same => ?_
  have callee : (readConstructed rules).Takes rest Spell := by
    refine .current_bind ((readHead_spells h (h .construct rest)).bind fun _ _ _ _ hm => ?_)
    exact .room_bind fun _ => (readMembers_goesOn h).mono fun _ _ goesOn => goesOn _ hm
  have arguments (rest : List Token) :
      (readConstructArguments rules t).Takes rest fun taken n => SpellAll taken [n] := by
    refine .check_bind (.ite (fun _ => (readArguments_spells h).mono fun _ _ hn => hn.all)
      fun _ => ?_)
    exact .pure (.make t (by decide) .nil)
  refine callee.bind fun _ m rest _ hm => (arguments rest).bind fun _ n _ _ hn => .pure ?_
  refine .make t (by decide) (.silent (by rw [same, word]; rfl) ?_)
  rw [List.append_nil]
  exact hm.cons hn

theorem readCalls_goesOn {n : Nat} {callee : Node} :
    (readCalls rules start n callee).Takes tokens (GoesOn callee) := by
  induction n generalizing tokens callee with
  | zero => exact .tooDeep
  | succ n ih =>
    rw [readCalls]
    refine .check_bind (.ite (fun _ => ?_) fun _ => .check_bind (.ite (fun _ => ?_) fun _ =>
      .check_bind (.ite (fun _ => ?_) fun _ => .check_bind (.ite (fun found => ?_)
        fun _ => .pure (.refl callee)))))
    · exact readNamedMember_goesOn.bind fun _ _ _ _ first => ih.mono fun _ _ => first.trans
    · exact (readComputedMember_goesOn h).bind fun _ _ _ _ first => ih.mono fun _ _ => first.trans
    · refine (readArguments_spells h).bind fun _ _ _ _ hn => ih.mono fun _ _ => GoesOn.trans ?_
      exact .make start (by decide) hn.all
    · refine .advance_bind (more_of_found found (by decide)) fun t rest _ same => ?_
      refine (readTemplate_spells h (by rw [same, beq_iff_eq.mp found])).bind ?_
      rintro _ n rest - ⟨rfl, hn⟩
      have called : GoesOn callee [t] (.make .taggedTemplate [callee, n] start) :=
        .make start (by decide) hn.all
      exact ih.mono fun _ _ => called.trans

theorem readCallMember_spells : (readCallMember rules).Takes tokens Spell := by
  refine .current_bind ((readHead_spells h (readConstruct_spells h)).bind fun _ _ _ _ hm => ?_)
  exact .room_bind fun _ => (readCalls_goesOn h).mono fun _ _ goesOn => goesOn _ hm

/-! ### Operators -/

/-- **Steps after operands** stand on the lines on which these end. -/
theorem readPostfix_spells : (readPostfix rules).Takes tokens Spell := by
  refine .current_bind ((readCallMember_spells h).bind fun taken target rest _ hm =>
    .checkStep_bind (.current_bind (.ite (fun step => .ite (fun _ => ?_) fun _ => .fail)
      fun _ => .pure (by rwa [List.append_nil]))))
  obtain ⟨isStep, sameLine⟩ := Bool.and_eq_true_iff.mp step
  refine .advance_bind (more_of_step isStep) fun t _ _ same => .pure ?_
  rw [← same] at isStep sameLine
  exact ⟨List.append_ne_nil_of_left_ne_nil hm.1 _,
    .stepped _ (isStep_of_checkStep isStep) (by simpa using sameLine) hm.all⟩

theorem readUnary_spells : (readUnary rules).Takes tokens Spell := by
  refine .current_bind (.ite (fun isPrefix => ?_) fun _ => .checkStep_bind (.ite (fun step => ?_)
    fun _ => readPostfix_spells h))
  · refine .advance_bind (more_of_isPrefixOperator isPrefix) fun t rest _ same => ?_
    refine (h .unary rest trivial).bind fun taken n _ _ hn => .pure ?_
    rw [← same] at isPrefix ⊢
    exact .make t (by decide)
      (.leaf .operator (ne_arrow_of_isPrefixOperator isPrefix) (Spell.cons hn .nil))
  · refine .advance_bind (more_of_step step) fun t rest _ same => ?_
    refine (h .unary rest trivial).bind fun taken n _ _ hn =>
      .ite (fun _ => .pure ?_) fun _ => .fail
    rw [← same] at step ⊢
    have noArrow : t.kind ≠ .arrow := by
      rcases isStep_of_checkStep step with is | is <;> rw [is] <;> decide
    exact .make t (by decide) (.leaf .operator noArrow (Spell.cons hn .nil))

theorem readOperators_goesOn {least n : Nat} {left : Node} :
    (readOperators rules least start n left).Takes tokens (GoesOn left) := by
  induction n generalizing tokens left with
  | zero => exact .tooDeep
  | succ n ih =>
    rw [readOperators]
    refine .current_bind ?_
    cases operator : precedence? (head tokens) with
    | none => exact .pure (.refl left)
    | some precedence =>
      refine .ite (fun _ => .pure (.refl left)) fun _ => ?_
      refine .advance_bind (more_of_precedence? operator) fun t rest _ same => ?_
      rw [← same] at operator
      refine (h (.binary _) rest trivial).bind fun taken right _ _ hn => ?_
      have children : SpellAll (t :: taken) [.ofToken .operator t, right] :=
        .leaf .operator (ne_arrow_of_precedence? operator) (Spell.all hn)
      have goes {kind : Kind} (free : kind ≠ .arrow ∧ kind ≠ .returnStatement) :
          GoesOn left (t :: taken) (.make kind [left, .ofToken .operator t, right] start) :=
        .make start free children
      exact ih.mono fun _ _ => (goes (by split <;> decide)).trans

theorem readBinary_spells {least : Nat} : (readBinary rules least).Takes tokens Spell :=
  .current_bind ((readUnary_spells h).bind fun _ _ _ _ hm => .room_bind fun _ =>
    (readOperators_goesOn h).mono fun _ _ goesOn => goesOn _ hm)

theorem readConditional_spells : (readConditional rules).Takes tokens Spell := by
  refine .current_bind ((readBinary_spells h).bind fun test m rest _ hm => ?_)
  refine .accept_bind (by decide) (fun mark rest _ isMark => .ite (fun _ => ?_) nofun)
    fun _ => .ite nofun fun _ => .pure (by rwa [List.append_nil])
  refine (h.expression rest).bind fun consequent n rest _ hn => ?_
  refine .expect_bind (by decide) fun colon rest _ isColon => ?_
  refine (h.expression rest).bind fun alternate k _ _ hk => .pure ?_
  have others : SpellAll (mark :: (consequent ++ colon :: (alternate ++ []))) [n, k] :=
    .silent (by rw [isMark]; rfl) (hn.cons (.silent (by rw [isColon]; rfl) (hk.cons .nil)))
  exact hm.makeWith _ (by decide) others

omit h in
/-- Looking for an arrow takes nothing. -/
theorem Reader.Takes.checkArrow_bind {Q : List Token → β → Prop} {next : Bool → Reader β}
    (yes : (head tokens).kind = .identifier ∨ arrowAhead 0 tokens = true →
      (next true).Takes tokens Q)
    (no : (next false).Takes tokens Q) : Takes tokens Q (checkArrow >>= next) := by
  have found (b : Bool)
      (arrows : b = true → (head tokens).kind = .identifier ∨ arrowAhead 0 tokens = true) :
      (next b).Takes tokens Q := by
    cases b with
    | true => exact yes (arrows rfl)
    | false => exact no
  unfold checkArrow
  rw [bind_assoc]
  refine .current_bind ?_
  cases kind : (head tokens).kind with
  | identifier =>
    exact found ((tokens[1]?.getD (tokens.getLastD Token.missing)).kind == .arrow)
      fun _ => .inl kind
  | leftParen => exact found (arrowAhead 0 tokens) .inr
  | _ => exact no

/-- **Expressions spell** what they are read as. -/
theorem readExpression_spells : (readExpression rules).Takes tokens Spell := by
  refine .checkArrow_bind (fun arrows => .ite (fun _ => readArrow_spells h arrows) nofun)
    (.ite nofun fun _ => ?_)
  refine .current_bind ((readConditional_spells h).bind fun left m rest _ hm => ?_)
  refine .check_bind (.ite (fun assigns => .ite (fun _ => ?_) fun _ => .fail)
    fun _ => .pure (by rwa [List.append_nil]))
  refine .advance_bind (more_of_found assigns (by decide)) fun t rest _ same => ?_
  refine (h.expression rest).bind fun value n _ _ hn => .pure ?_
  have others : SpellAll (t :: (value ++ [])) [.ofToken .operator t, n] :=
    .leaf .operator (by rw [same, beq_iff_eq.mp assigns]; decide) (hn.cons .nil)
  exact hm.makeWith _ (by decide) others

/-! ## Statements -/

omit h in
/-- A statement ends with a semicolon or with nothing. -/
theorem readStatementEnd_takes :
    readStatementEnd.Takes tokens fun taken _ => ∀ t ∈ taken, t.kind.isSilent = true :=
  .accept_bind (by decide)
    (fun _ _ _ isEnd =>
      .ite (fun _ => .pure (List.forall_mem_singleton.mpr (by rw [isEnd]; rfl))) nofun)
    fun _ => .ite nofun fun _ =>
      .current_bind (.ite (fun _ => .pure (List.forall_mem_nil _)) fun _ => .unexpected)

theorem readDeclarator_spells : (readDeclarator rules).Takes tokens Spell := by
  refine .expect_bind (by decide) fun name rest _ isName => ?_
  have noArrow : name.kind ≠ .arrow := by rw [isName]; decide
  refine .current_bind (.ite (fun assigns => ?_) fun _ => .pure ?_)
  · have assigns := (Bool.and_eq_true_iff.mp assigns).1
    refine .advance_bind (more_of_found assigns (by decide)) fun t rest _ same => ?_
    refine (h.expression rest).bind fun value n _ _ hn => .pure ?_
    exact .make name (by decide) (.leaf .identifier noArrow
      (.silent (by rw [same, beq_iff_eq.mp assigns]; rfl) (hn.cons .nil)))
  · exact .make name (by decide) (.leaf .identifier noArrow .nil)

theorem readDeclaration_spells (more : (head tokens).kind ≠ .endOfText)
    (noArrow : (head tokens).kind ≠ .arrow) : (readDeclaration rules).Takes tokens Spell := by
  refine .advance_bind more fun t _ _ same => .room_bind fun _ => ?_
  refine (Takes.spellCommaSeparated fun _ => readDeclarator_spells h).bind
    fun taken ns _ _ hns => ?_
  refine readStatementEnd_takes.bind fun ends _ _ _ hends => .pure ?_
  have children : SpellAll (taken ++ (ends ++ [])) ns := by
    simpa using hns.append (.passed hends)
  exact .make t (by decide) (.leaf .declarationWord (by rwa [same]) children)

theorem readFunctionDeclaration_spells (word : (head tokens).kind = .functionWord) :
    (readFunctionDeclaration rules).Takes tokens Spell := by
  refine .advance_bind (by rw [word]; decide) fun t _ _ same => ?_
  refine .expect_bind (by decide) fun name _ _ isName => ?_
  refine readParams_spells.bind fun params m _ _ hm => ?_
  refine (readBlock_spells h).bind fun body n _ _ hn => .pure ?_
  exact .make t (by decide) (.silent (by rw [same, word]; rfl)
    (.leaf .identifier (by rw [isName]; decide) (hm.cons (hn.cons .nil))))

theorem readConditionalStatement_spells (word : (head tokens).kind = .ifWord) :
    (readConditionalStatement rules).Takes tokens Spell := by
  refine .advance_bind (by rw [word]; decide) fun t rest _ same => ?_
  refine .expect_bind (by decide) fun opening rest _ opens => ?_
  refine (h.expression rest).bind fun test m rest _ hm => ?_
  refine .expect_bind (by decide) fun closing rest _ closes => ?_
  refine (h.statement rest).bind fun consequent n rest _ hn => ?_
  have front {xs : List Token} {ns : List Node} (others : SpellAll xs ns) :
      Spell (t :: opening :: (test ++ closing :: (consequent ++ xs)))
        (.make .conditionalStatement (m :: n :: ns) t) :=
    .make t (by decide) (.silent (by rw [same, word]; rfl)
      (.silent (by rw [opens]; rfl) (hm.cons (.silent (by rw [closes]; rfl) (hn.cons others)))))
  refine .accept_bind (by decide) (fun mark rest _ isElse => .ite (fun _ => ?_) nofun)
    fun _ => .ite nofun fun _ => .pure (front .nil)
  refine (h.statement rest).bind fun alternate k _ _ hk => .pure (front ?_)
  exact .silent (by rw [isElse]; rfl) (hk.cons .nil)

/-- **Returns**: a value begins on the line of the word. -/
theorem readReturn_spells (word : (head tokens).kind = .returnWord) :
    (readReturn rules).Takes tokens Spell := by
  refine .advance_bind (by rw [word]; decide) fun t rest _ same => ?_
  have isWord : t.kind = .returnWord := by rw [same, word]
  refine .current_bind (.ite (fun _ => ?_) fun valued => ?_)
  · refine readStatementEnd_takes.bind fun ends _ _ _ hends => .pure ?_
    rw [List.append_nil]
    exact ⟨List.cons_ne_nil _ _, .branch t ⟨by decide, fun _ => rfl⟩
      (.silent (by rw [isWord]; rfl) (.passed hends))⟩
  · -- The reader has looked at the token behind the word, and the value begins with it.
    have sameLine : (head rest).newlineBefore = false := by
      rw [Bool.not_eq_true, Bool.or_eq_false_iff] at valued
      exact valued.2
    refine (h.expression rest).bind fun value n later split hn => ?_
    refine readStatementEnd_takes.bind fun ends _ _ _ hends => .pure ?_
    obtain ⟨first, others, rfl⟩ := List.exists_cons_of_ne_nil hn.1
    have returned : SpellAll (t :: first :: others) [.make .returnStatement [n] t] :=
      .returning isWord ⟨first, others, rfl, by rw [split] at sameLine; exact sameLine⟩ hn.all
    refine ⟨List.cons_ne_nil _ _, ?_⟩
    simpa using returned.append (.passed hends)

/-- An expression and the end of a statement spell a statement. -/
theorem readExpressionStatement_spells :
    Takes tokens Spell (readExpression rules >>= fun n => readStatementEnd >>= fun _ =>
      Pure.pure (Node.make .expressionStatement [n] start)) := by
  refine (readExpression_spells h).bind fun taken n _ _ hn => ?_
  refine readStatementEnd_takes.bind fun ends _ _ _ hends => .pure ?_
  rw [List.append_nil]
  have whole : SpellAll (taken ++ ends) [n] := by
    simpa using hn.all.append (.passed hends)
  exact ⟨List.append_ne_nil_of_left_ne_nil hn.1 _, .make start (by decide) whole⟩

/-- **Statements spell** what they are read as. -/
theorem readStatement_spells : (readStatement rules).Takes tokens Spell := by
  refine .current_bind ?_
  cases kind : (head tokens).kind with
  | leftBrace => exact readBlock_spells h
  | semicolon =>
    refine .advance_bind (by rw [kind]; decide) fun t _ _ same => .pure ?_
    exact .make _ (by decide) (.silent (by rw [same, kind]; rfl) .nil)
  | varWord | letWord | constWord =>
    exact readDeclaration_spells h (by rw [kind]; decide) (by rw [kind]; decide)
  | functionWord => exact readFunctionDeclaration_spells h kind
  | ifWord => exact readConditionalStatement_spells h kind
  | returnWord => exact readReturn_spells h kind
  | _ => exact readExpressionStatement_spells h

end Rules

/-! ## The circle of rules -/

/-- What is left of tokens that come to an end, once it has been reached, begins with it. -/
theorem exists_end {tokens : List Token} (ends : HasEnd tokens)
    (ended : (head tokens).kind = .endOfText) :
    ∃ last after, tokens = last :: after ∧ last.kind = .endOfText := by
  cases tokens with
  | nil =>
    obtain ⟨_, none, -⟩ := ends
    cases none
  | cons last after => exact ⟨last, after, rfl, ended⟩

/-- An expression that is a whole list of tokens is spelled by those before the end. -/
theorem spells_of_readWhole {reader : Reader Node} {tokens rest : List Token} {n : Node}
    (h : reader.Takes tokens Spell) (ends : HasEnd tokens)
    (reads : readWhole reader tokens = .ok (n, rest)) :
    ∃ own last after, tokens = own ++ last :: after ∧ last.kind = .endOfText ∧ Spell own n := by
  obtain ⟨⟨m, between⟩, first, second⟩ := Except.of_bind_eq_ok reads
  obtain ⟨own, rfl, proper, spells⟩ := h ends m between first
  replace second : (if ((head between).kind == .endOfText) = true then pure m
      else Reader.unexpected : Reader Node) between = .ok (n, rest) := second
  split at second
  · rename_i ended
    cases second
    obtain ⟨last, after, rfl, isEnd⟩ := exists_end (ends.of_append proper) (beq_iff_eq.mp ended)
    exact ⟨own, last, after, rfl, isEnd, spells⟩
  · cases second

/-- An expression in a template is spelled by the tokens of its text. -/
theorem readFragment_spells {rules : Rules} (h : rules.SpellOut) {tokens : List Token}
    {source : Text} {line : Int} :
    (readFragment rules source line).Takes tokens (Rule.fragment source line).Spells := by
  unfold readFragment
  split
  · exact .throw
  · rename_i whole cut
    split
    · exact .throw
    · rename_i n rest reads
      obtain ⟨final, same, isFinal⟩ := tokens_of_tokenize cut
      have ends : HasEnd whole := ⟨final, by rw [same]; simp, isFinal⟩
      obtain ⟨own, last, after, rfl, ended, spells⟩ :=
        spells_of_readWhole (readExpression_spells h) ends reads
      exact .pure ⟨rfl, own, last, after, cut, ended, spells.all⟩

/-- **All rules spell** what they give, to whatever depth they are read. -/
theorem readRule_spells (depth : Nat) : (readRule depth).SpellOut := by
  intro rule tokens readable
  -- A rule reads its parts by rules of the depth below, those of a fragment included.
  induction depth generalizing rule tokens with
  | zero => exact .tooDeep
  | succ depth ih =>
    cases rule with
    | statement => exact readStatement_spells ih
    | expression => exact readExpression_spells ih
    | binary least => exact readBinary_spells ih
    | unary => exact readUnary_spells ih
    | construct => exact readConstruct_spells ih readable
    | fragment source line => exact readFragment_spells ih

end Scriptlet
