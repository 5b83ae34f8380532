import Scriptlet.Proofs.Balance
import Scriptlet.Proofs.Grouping

/-!
# Seams

A semicolon that ends a statement may be left out where a line ends, and in front of a closing
brace or the end of the text. To show this, two readings are followed side by side: of the tokens
as they are written, and of the same tokens without one semicolon. Up to the semicolon the two see
the same tokens. At the *seam*, where the one sees the semicolon, the other already sees the token
that follows; and once the statement has ended and the next one has begun, both again see the same.

The claim is one-sided. The reading of what is written is taken to succeed, and from that it
follows that the other one does. Whether the token at the seam could carry on the expression in
front of it is not known when the reading gets there; it is known later, because a statement begins
with that token. What the other reading does is therefore stated under the hypothesis that the
token is *apart*, and a pair of states behind the seam carries the proof that it is.
-/

namespace Scriptlet

open Reader

/-! ## Which semicolons end a statement -/

/-- Reads by a rule, to the given depth, but **starts no statement where `spared` tokens are
left**. A text of its own is read as ever, since it has tokens of its own. -/
def readRuleBut (spared : Nat) : Nat → Rules
  | 0, _ => tooDeep
  | depth + 1, .statement => do
    if (← room) == spared then unexpected else readStatement (readRuleBut spared depth)
  | depth + 1, .expression => readExpression (readRuleBut spared depth)
  | depth + 1, .binary least => readBinary (readRuleBut spared depth) least
  | depth + 1, .unary => readUnary (readRuleBut spared depth)
  | depth + 1, .construct => readConstruct (readRuleBut spared depth)
  | depth + 1, .fragment source line => readFragment (readRule depth) source line

/-- The program that tokens form if **no statement starts where `spared` of them are left**. -/
def parseTokensBut (spared : Nat) (tokens : List Token) : Except SyntaxError Node :=
  ((readProgram (readRuleBut spared (depthFor tokens))).run tokens).map Prod.fst

/-- A semicolon **ends a statement** in the program that some tokens form. It is consumed, being in
front of the end, and of the two rules that consume semicolons it is not the one for an empty
statement: no statement starts with it, and the program is the same if none may. -/
structure EndsStatement (front : List Token) (semicolon : Token) (behind : List Token) : Prop where
  /-- It is a semicolon. -/
  isSemicolon : semicolon.kind = .semicolon
  /-- The text does not end in front of it. -/
  inside : ∀ t ∈ front, t.kind ≠ .endOfText
  /-- No statement starts with it. -/
  spared : parseTokensBut (semicolon :: behind).length (front ++ semicolon :: behind)
    = parseTokens (front ++ semicolon :: behind)

/-! ## Seams -/

/-- A **seam**: a semicolon with what follows it, and the token that follows as it stands when the
semicolon is left out. -/
structure Seam where
  /-- The semicolon. -/
  semicolon : Token
  /-- The token that follows. -/
  next : Token
  /-- The same token without the semicolon. -/
  next' : Token
  /-- What follows both. -/
  rest : List Token
  isSemicolon : semicolon.kind = .semicolon
  /-- What follows is neither another semicolon nor such that it may both start a statement and
  carry on an expression. -/
  parted : next.kind ∉ [.semicolon, .leftParen, .leftBracket, .template, .operator]
  /-- All that may differ is whether a line ends in front of it. -/
  alike : next' = { next with newlineBefore := next'.newlineBefore }
  /-- A statement may end in front of it without a semicolon. -/
  ends : next'.kind = .rightBrace ∨ next'.kind = .endOfText ∨ next'.newlineBefore = true
  /-- The text comes to an end. -/
  hasEnd : HasEnd (next :: rest)

namespace Seam

/-- The tokens from the seam on, **as they are written**. -/
def written (e : Seam) : List Token :=
  e.semicolon :: e.next :: e.rest

/-- The tokens from the seam on, **where the semicolon is implied**. -/
def implied (e : Seam) : List Token :=
  e.next' :: e.rest

/-- The kinds of tokens that may carry on an expression or a list. -/
def carriesOn : List TokenKind :=
  [.dot, .leftBracket, .leftParen, .template, .operator, .inWord, .instanceofWord, .question, .assign,
    .comma, .arrow]

/-- The token behind the seam is **apart** if it cannot carry on what stands in front. -/
def IsApart (e : Seam) : Prop :=
  e.next.kind ∉ carriesOn

variable {e : Seam} {tokens tokens' : List Token} {kind : TokenKind}

theorem kind_next' (e : Seam) : e.next'.kind = e.next.kind :=
  (congrArg Token.kind e.alike).trans rfl

theorem IsApart.ne (apart : e.IsApart) (carries : kind ∈ carriesOn) : (e.next'.kind == kind) = false := by
  rw [beq_eq_false_iff_ne, kind_next']
  rintro rfl
  exact apart carries

theorem semicolon_ne (other : kind ≠ .semicolon) : (e.semicolon.kind == kind) = false := by
  rw [beq_eq_false_iff_ne, e.isSemicolon]
  exact other.symm

theorem ne_semicolon_of_carries (carries : kind ∈ carriesOn) : kind ≠ .semicolon := by
  rintro rfl
  exact absurd carries (by decide)

theorem more_of_carries (carries : kind ∈ carriesOn) : kind ≠ .endOfText := by
  rintro rfl
  exact absurd carries (by decide)

/-! ## Pairs of states -/

/-- Two states stand **inside**: both see the same token, be it in front of the seam or behind. -/
inductive Inside (e : Seam) : List Token → List Token → Prop
  | ahead (u : Token) (front : List Token) (more : ∀ v ∈ u :: front, v.kind ≠ .endOfText) :
    e.Inside (u :: front ++ e.written) (u :: front ++ e.implied)
  | behind (tokens : List Token) (ends : HasEnd tokens) (apart : e.IsApart) : e.Inside tokens tokens

/-- Two states stand **side by side**: inside or at the seam. -/
inductive Beside (e : Seam) : List Token → List Token → Prop
  | seam : e.Beside e.written e.implied
  | inside {tokens tokens' : List Token} (h : e.Inside tokens tokens') : e.Beside tokens tokens'

/-- Where one statement has ended and another may start, two states stand side by side, or **past
the seam**: the semicolon has been consumed and the token behind it has not. -/
inductive Near (e : Seam) : List Token → List Token → Prop
  | past : e.Near (e.next :: e.rest) e.implied
  | inside {tokens tokens' : List Token} (h : e.Inside tokens tokens') : e.Near tokens tokens'

theorem Inside.head_eq (h : e.Inside tokens tokens') : head tokens' = head tokens := by
  cases h <;> rfl

theorem Inside.ne_nil (h : e.Inside tokens tokens') : tokens' ≠ [] := by
  cases h with
  | ahead u front => exact List.cons_ne_nil _ _
  | behind _ ends =>
    rintro rfl
    obtain ⟨t, member, -⟩ := ends
    cases member

theorem Inside.eq_cons (h : e.Inside tokens tokens') : tokens' = head tokens :: tokens'.tail := by
  obtain ⟨t, rest, same⟩ := List.exists_cons_of_ne_nil h.ne_nil
  rw [← h.head_eq, same]
  rfl

theorem Beside.ne_nil (h : e.Beside tokens tokens') : tokens' ≠ [] := by
  cases h with
  | seam => exact List.cons_ne_nil _ _
  | inside h => exact h.ne_nil

theorem Near.ne_nil (h : e.Near tokens tokens') : tokens' ≠ [] := by
  cases h with
  | past => exact List.cons_ne_nil _ _
  | inside h => exact h.ne_nil

/-- A loop with a turn for each token has at least one turn. -/
theorem Beside.exists_succ {n : Nat} (h : e.Beside tokens tokens') (bound : tokens'.length ≤ n) :
    ∃ m, n = m + 1 :=
  Nat.exists_eq_add_one.mpr (Nat.lt_of_lt_of_le (List.length_pos_iff.mpr h.ne_nil) bound)

theorem Near.exists_succ {n : Nat} (h : e.Near tokens tokens') (bound : tokens'.length ≤ n) :
    ∃ m, n = m + 1 :=
  Nat.exists_eq_add_one.mpr (Nat.lt_of_lt_of_le (List.length_pos_iff.mpr h.ne_nil) bound)

/-- Beyond its first token, what stands in front of the seam stands side by side. -/
theorem beside_append (front : List Token) (more : ∀ v ∈ front, v.kind ≠ .endOfText) :
    e.Beside (front ++ e.written) (front ++ e.implied) := by
  cases front with
  | nil => exact .seam
  | cons u front => exact .inside (.ahead u front more)

/-- At the seam, a reader fails that cannot begin with a semicolon. -/
def Fails (e : Seam) (reader : Reader α) : Prop :=
  ∃ cause, reader e.written = .error cause

theorem Fails.bind {reader : Reader α} {next : α → Reader β} (h : e.Fails reader) :
    e.Fails (reader >>= next) := by
  obtain ⟨cause, h⟩ := h
  refine ⟨cause, ?_⟩
  show (reader e.written >>= fun result => next result.1 result.2) = .error cause
  rw [h]
  rfl

theorem Fails.map {reader : Reader α} {f : α → β} (h : e.Fails reader) : e.Fails (f <$> reader) := by
  rw [map_eq_pure_bind]
  exact h.bind

/-- What fails whenever the first token is a semicolon fails at the seam. -/
theorem fails_of_semicolon {reader : Reader α} (h : ∀ text line column newline rest,
    ∃ cause, reader (⟨.semicolon, text, line, column, newline⟩ :: rest) = .error cause) :
    e.Fails reader := by
  unfold Fails written
  have kind := e.isSemicolon
  generalize e.semicolon = semicolon at kind
  obtain ⟨_, text, line, column, newline⟩ := semicolon
  cases kind
  exact h text line column newline _

theorem fails_expect (other : kind ≠ .semicolon) : e.Fails (Reader.expect kind) := by
  refine fails_of_semicolon fun text line column newline rest => ?_
  cases kind <;> first | exact ⟨_, rfl⟩ | exact absurd rfl other

/-! ## Following -/

/-- The second of two readers **follows** the first from a pair of states: where the first reads
something, what the two leave stands side by side, the second leaves it within a limit, and if the
token behind the seam is apart, the second reads the same. -/
def Follows (e : Seam) (tokens tokens' limit : List Token) (reader reader' : Reader α) : Prop :=
  ∀ a left, reader tokens = .ok (a, left) →
    ∃ left', e.Beside left left' ∧ left' <:+ limit ∧ (e.IsApart → reader' tokens' = .ok (a, left'))

namespace Follows

variable {limit limit' : List Token} {reader reader' : Reader α}

theorem pure (beside : e.Beside tokens tokens') {a : α} :
    e.Follows tokens tokens' tokens' (Pure.pure a) (Pure.pure a) := by
  intro b left hrun
  cases hrun
  exact ⟨tokens', beside, List.suffix_rfl, fun _ => rfl⟩

theorem throw {cause : SyntaxError} {reader' : Reader α} :
    e.Follows tokens tokens' limit (MonadExcept.throw cause) reader' :=
  nofun

theorem mono (h : e.Follows tokens tokens' limit reader reader') (wider : limit <:+ limit') :
    e.Follows tokens tokens' limit' reader reader' := by
  intro a left hrun
  obtain ⟨left', beside, within, same⟩ := h a left hrun
  exact ⟨left', beside, within.trans wider, same⟩

/-- What consumes something leaves no more than there was. -/
theorem loose (h : e.Follows tokens tokens' tokens'.tail reader reader') :
    e.Follows tokens tokens' tokens' reader reader' :=
  h.mono (List.tail_suffix tokens')

/-- What the second reader does matters only if the token behind the seam is apart. -/
theorem congr {reader'' : Reader α} (h : e.Follows tokens tokens' limit reader reader'')
    (same : e.IsApart → reader' tokens' = reader'' tokens') :
    e.Follows tokens tokens' limit reader reader' := by
  intro a left hrun
  obtain ⟨left', beside, within, reads⟩ := h a left hrun
  exact ⟨left', beside, within, fun apart => (same apart).trans (reads apart)⟩

/-- A reader that fails at the seam needs to be followed only inside. -/
theorem of_inside (beside : e.Beside tokens tokens') (fails : e.Fails reader)
    (h : e.Inside tokens tokens' → e.Follows tokens tokens' limit reader reader') :
    e.Follows tokens tokens' limit reader reader' := by
  cases beside with
  | seam =>
    obtain ⟨cause, fails⟩ := fails
    intro a left hrun
    cases fails.symm.trans hrun
  | inside inside => exact h inside

/-- **One reader after another.** -/
theorem bind {next next' : α → Reader β} (first : e.Follows tokens tokens' limit reader reader')
    (second : ∀ a left left', e.Beside left left' → left' <:+ limit →
      e.Follows left left' left' (next a) (next' a)) :
    e.Follows tokens tokens' limit (reader >>= next) (reader' >>= next') := by
  intro b left hrun
  obtain ⟨⟨a, between⟩, hfirst, hsecond⟩ := Except.of_bind_eq_ok hrun
  obtain ⟨between', beside, within, same⟩ := first a between hfirst
  obtain ⟨left', beside', within', same'⟩ := second a between between' beside within b left hsecond
  refine ⟨left', beside', within'.trans within, fun apart => ?_⟩
  rw [Reader.bind_eq_of_ok (same apart)]
  exact same' apart

theorem map {f : α → β} (h : e.Follows tokens tokens' limit reader reader') :
    e.Follows tokens tokens' limit (f <$> reader) (f <$> reader') := by
  rw [map_eq_pure_bind, map_eq_pure_bind]
  exact h.bind fun _ _ _ beside _ => .pure beside

theorem ite {c : Prop} [Decidable c] {other other' : Reader α}
    (yes : c → e.Follows tokens tokens' limit reader reader')
    (no : ¬ c → e.Follows tokens tokens' limit other other') :
    e.Follows tokens tokens' limit (if c then reader else other) (if c then reader' else other') := by
  by_cases h : c
  · rw [if_pos h, if_pos h]
    exact yes h
  · rw [if_neg h, if_neg h]
    exact no h

/-! ### Looking at tokens and consuming them -/

theorem fail {cause : ParseCause} {t : Token} {reader' : Reader α} :
    e.Follows tokens tokens' limit (Reader.fail cause t) reader' :=
  throw

theorem unexpected {reader' : Reader α} : e.Follows tokens tokens' limit Reader.unexpected reader' :=
  nofun

theorem current_bind (inside : e.Inside tokens tokens') {next next' : Token → Reader β}
    (h : e.Follows tokens tokens' limit (next (head tokens)) (next' (head tokens))) :
    e.Follows tokens tokens' limit (current >>= next) (current >>= next') := by
  refine h.congr fun _ => ?_
  rw [← inside.head_eq]
  rfl

theorem room_bind {next next' : Nat → Reader β}
    (h : e.Follows tokens tokens' limit (next tokens.length) (next' tokens'.length)) :
    e.Follows tokens tokens' limit (room >>= next) (room >>= next') :=
  h

theorem check_bind_inside (inside : e.Inside tokens tokens') {next next' : Bool → Reader β}
    (h : e.Follows tokens tokens' limit (next ((head tokens).kind == kind))
      (next' ((head tokens).kind == kind))) :
    e.Follows tokens tokens' limit (check kind >>= next) (check kind >>= next') := by
  refine h.congr fun _ => ?_
  rw [← inside.head_eq]
  rfl

end Follows

/-- Consuming a token that both readings see. -/
theorem Inside.advance (inside : e.Inside tokens tokens') (more : (head tokens).kind ≠ .endOfText) :
    ∃ left, Reader.advance tokens = .ok (head tokens, left)
      ∧ Reader.advance tokens' = .ok (head tokens, tokens'.tail) ∧ e.Beside left tokens'.tail := by
  have step {t : Token} {rest : List Token} (some : rest ≠ []) :
      Reader.advance (t :: rest) = .ok (t, rest) := by
    obtain ⟨u, rest, rfl⟩ := List.exists_cons_of_ne_nil some
    rfl
  cases inside with
  | ahead u front noEnd =>
    have beside := beside_append (e := e) front fun v member => noEnd v (List.mem_cons_of_mem _ member)
    exact ⟨_, step (by simp [written]), step beside.ne_nil, beside⟩
  | behind _ ends apart =>
    obtain ⟨t, rest, rfl⟩ : ∃ t rest, tokens = t :: rest := by
      cases tokens with
      | nil => exact absurd rfl more
      | cons t rest => exact ⟨t, rest, rfl⟩
    have ends' := (hasEnd_cons more).mp ends
    have inside : e.Inside rest rest := .behind rest ends' apart
    exact ⟨rest, step inside.ne_nil, step inside.ne_nil, .inside inside⟩

/-- Consuming a token past the seam that does not carry on. -/
theorem Near.advance (near : e.Near tokens tokens') (apart : (head tokens).kind ∉ carriesOn)
    (more : (head tokens).kind ≠ .endOfText) :
    ∃ left, Reader.advance tokens = .ok (head tokens, left)
      ∧ Reader.advance tokens' = .ok (head tokens', tokens'.tail) ∧ e.Beside left tokens'.tail := by
  cases near with
  | past =>
    have inside : e.Inside e.rest e.rest := .behind _ ((hasEnd_cons more).mp e.hasEnd) apart
    obtain ⟨u, rest, same⟩ := List.exists_cons_of_ne_nil inside.ne_nil
    refine ⟨e.rest, ?_, ?_, .inside inside⟩
    · rw [same]
      rfl
    · show Reader.advance (e.next' :: e.rest) = .ok (e.next', e.rest)
      rw [same]
      rfl
  | inside inside =>
    rw [inside.head_eq]
    exact inside.advance more

/-- At the seam, both readings see a token that is not of a kind that carries on. -/
theorem Beside.check_eq (beside : e.Beside tokens tokens') (carries : kind ∈ carriesOn)
    (apart : e.IsApart) : ((head tokens').kind == kind) = ((head tokens).kind == kind) := by
  cases beside with
  | seam => exact (apart.ne carries).trans (semicolon_ne (ne_semicolon_of_carries carries)).symm
  | inside inside => rw [inside.head_eq]

/-- A token that is found to be of another kind than a semicolon is seen by both readings. -/
theorem Beside.inside_of_found (beside : e.Beside tokens tokens')
    (found : ((head tokens).kind == kind) = true) (other : kind ≠ .semicolon) :
    e.Inside tokens tokens' := by
  cases beside with
  | seam => cases found.symm.trans (semicolon_ne other)
  | inside inside => exact inside

namespace Follows

variable {limit limit' : List Token} {reader reader' : Reader α}

theorem check_bind (beside : e.Beside tokens tokens') (carries : kind ∈ carriesOn)
    {next next' : Bool → Reader β}
    (h : e.Follows tokens tokens' limit (next ((head tokens).kind == kind))
      (next' ((head tokens).kind == kind))) :
    e.Follows tokens tokens' limit (check kind >>= next) (check kind >>= next') := by
  refine h.congr fun apart => ?_
  rw [← beside.check_eq carries apart]
  rfl

/-- Both readings consume a token that both see. -/
theorem advance (inside : e.Inside tokens tokens') (more : (head tokens).kind ≠ .endOfText) :
    e.Follows tokens tokens' tokens'.tail Reader.advance Reader.advance := by
  obtain ⟨left, first, second, beside⟩ := inside.advance more
  intro a left' hrun
  cases first.symm.trans hrun
  exact ⟨tokens'.tail, beside, List.suffix_rfl, fun _ => second⟩

/-- Behind a token that both readings see, both go on with that token. -/
theorem advance_bind {next next' : Token → Reader β} (inside : e.Inside tokens tokens')
    (more : (head tokens).kind ≠ .endOfText)
    (h : ∀ left left', e.Beside left left' → left' <:+ tokens'.tail →
      e.Follows left left' left' (next (head tokens)) (next' (head tokens))) :
    e.Follows tokens tokens' tokens'.tail (Reader.advance >>= next) (Reader.advance >>= next') := by
  obtain ⟨left, first, second, beside⟩ := inside.advance more
  intro b left' hrun
  rw [Reader.bind_eq_of_ok first] at hrun
  obtain ⟨left'', beside', within, same⟩ := h left _ beside List.suffix_rfl b left' hrun
  exact ⟨left'', beside', within, fun apart => (Reader.bind_eq_of_ok second).trans (same apart)⟩

theorem expect (beside : e.Beside tokens tokens') (other : kind ≠ .semicolon)
    (more : kind ≠ .endOfText) :
    e.Follows tokens tokens' tokens'.tail (Reader.expect kind) (Reader.expect kind) := by
  refine of_inside beside (fails_expect other) fun inside => ?_
  exact check_bind_inside inside (ite (fun found => advance inside (more_of_found found more))
    fun _ => unexpected)

/-- A construct that **ends with a token** of an expected kind. -/
theorem expect_pure {f : Token → β} (beside : e.Beside tokens tokens') (other : kind ≠ .semicolon)
    (more : kind ≠ .endOfText) :
    e.Follows tokens tokens' tokens' (Reader.expect kind >>= fun t => Pure.pure (f t))
      (Reader.expect kind >>= fun t => Pure.pure (f t)) :=
  loose ((expect beside other more).bind fun _ _ _ beside _ => pure beside)

/-- A token is accepted by both readings or by neither, if both see a token that is found. -/
theorem accept_bind_of_same {next next' : Bool → Reader β} (more : kind ≠ .endOfText)
    (sees : ((head tokens).kind == kind) = true → e.Inside tokens tokens')
    (same : e.IsApart → ((head tokens').kind == kind) = ((head tokens).kind == kind))
    (within : tokens'.tail <:+ limit)
    (yes : ∀ left left', e.Beside left left' → left' <:+ tokens'.tail →
      e.Follows left left' left' (next true) (next' true))
    (no : e.Follows tokens tokens' limit (next false) (next' false)) :
    e.Follows tokens tokens' limit (accept kind >>= next) (accept kind >>= next') := by
  have accepts : e.Follows tokens tokens' limit
      (if (head tokens).kind == kind then Reader.advance >>= fun _ => next true else next false)
      (if (head tokens).kind == kind then Reader.advance >>= fun _ => next' true else next' false) := by
    exact ite (fun found => mono (bind (advance (sees found) (more_of_found found more)) fun _ => yes)
      within) fun _ => no
  intro a left hrun
  rw [Shifts.run_accept_bind] at hrun
  obtain ⟨left', beside', within', reads⟩ := accepts a left hrun
  refine ⟨left', beside', within', fun apart => ?_⟩
  rw [Shifts.run_accept_bind, same apart]
  exact reads apart

/-- A token of a kind that carries on is not accepted at the seam. -/
theorem accept_bind {next next' : Bool → Reader β} (beside : e.Beside tokens tokens')
    (carries : kind ∈ carriesOn) (within : tokens'.tail <:+ limit)
    (yes : ∀ left left', e.Beside left left' → left' <:+ tokens'.tail →
      e.Follows left left' left' (next true) (next' true))
    (no : e.Follows tokens tokens' limit (next false) (next' false)) :
    e.Follows tokens tokens' limit (accept kind >>= next) (accept kind >>= next') :=
  accept_bind_of_same (more_of_carries carries)
    (beside.inside_of_found · (ne_semicolon_of_carries carries)) (beside.check_eq carries) within yes no

theorem accept_bind_inside {next next' : Bool → Reader β} (inside : e.Inside tokens tokens')
    (more : kind ≠ .endOfText) (within : tokens'.tail <:+ limit)
    (yes : ∀ left left', e.Beside left left' → left' <:+ tokens'.tail →
      e.Follows left left' left' (next true) (next' true))
    (no : e.Follows tokens tokens' limit (next false) (next' false)) :
    e.Follows tokens tokens' limit (accept kind >>= next) (accept kind >>= next') :=
  accept_bind_of_same more (fun _ => inside) (fun _ => by rw [inside.head_eq]) within yes no

/-! ### Lists of items with commas -/

/-- A list with commas, whose items do not start with a semicolon. -/
theorem commaList {close : TokenKind} {item item' : Reader α} {n n' : Nat}
    (beside : e.Beside tokens tokens') (bound : tokens'.length ≤ n') (fails : e.Fails item)
    (other : close ≠ .semicolon)
    (h : ∀ left left', e.Beside left left' → left' <:+ tokens' →
      e.Follows left left' left'.tail item item') :
    e.Follows tokens tokens' tokens' (commaList close item n) (Reader.commaList close item' n') := by
  induction n generalizing tokens tokens' n' with
  | zero => exact nofun
  | succ n ih =>
    obtain ⟨m, rfl⟩ := beside.exists_succ bound
    refine of_inside beside ?_ fun inside => check_bind_inside inside (ite (fun _ => pure beside) fun _ => ?_)
    · obtain ⟨cause, fails⟩ := fails.bind
      refine ⟨cause, ?_⟩
      show (if (e.semicolon.kind == close) = true then _ else _ : Reader (List α)) e.written = _
      rw [semicolon_ne other]
      exact fails
    refine ((h tokens tokens' beside List.suffix_rfl).bind fun x left left' beside within => ?_).loose
    refine accept_bind beside (by decide) (List.tail_suffix left') (fun left₁ left₁' beside within₁ => ?_)
      (pure beside)
    have below : left₁' <:+ tokens'.tail := within₁.trans ((List.tail_suffix left').trans within)
    exact (ih beside (EndAlike.length_tail_le bound below) fun left left' beside hl =>
      h left left' beside (hl.trans (below.trans (List.tail_suffix tokens')))).bind
        fun _ _ _ beside _ => pure beside

theorem commaSeparated {item item' : Reader α} {n n' : Nat} (beside : e.Beside tokens tokens')
    (bound : tokens'.length ≤ n')
    (h : ∀ left left', e.Beside left left' → left' <:+ tokens' →
      e.Follows left left' left'.tail item item') :
    e.Follows tokens tokens' tokens' (commaSeparated item n) (Reader.commaSeparated item' n') := by
  induction n generalizing tokens tokens' n' with
  | zero => exact nofun
  | succ n ih =>
    obtain ⟨m, rfl⟩ := beside.exists_succ bound
    refine ((h tokens tokens' beside List.suffix_rfl).bind fun x left left' beside within => ?_).loose
    refine accept_bind beside (by decide) (List.tail_suffix left') (fun left₁ left₁' beside within₁ => ?_)
      (pure beside)
    have below : left₁' <:+ tokens'.tail := within₁.trans ((List.tail_suffix left').trans within)
    exact (ih beside (EndAlike.length_tail_le bound below) fun left left' beside hl =>
      h left left' beside (hl.trans (below.trans (List.tail_suffix tokens')))).bind
        fun _ _ _ beside _ => pure beside

/-- A separator is not missing at the seam. -/
theorem separator {close : TokenKind} (beside : e.Beside tokens tokens') (other : close ≠ .semicolon) :
    e.Follows tokens tokens' tokens' (Reader.separator close) (Reader.separator close) := by
  refine of_inside beside (fails_of_semicolon fun text line column newline rest => ?_) fun inside =>
    check_bind_inside inside (ite (fun _ => pure beside) fun _ => ?_)
  · cases close <;> first | exact ⟨_, rfl⟩ | exact absurd rfl other
  · exact loose ((expect beside (by decide) (by decide)).bind fun _ _ _ beside _ => pure beside)

end Follows

/-! ## Settling -/

/-- The second of two readers **settles** where the first one does: where the first reads something
that may end a statement, either it has stopped in front of the semicolon, or what the two leave is
near, the second leaves it within a limit, and if the token behind the seam is apart, the second
reads the same. -/
def Settles (e : Seam) (tokens tokens' limit : List Token) (reader reader' : Reader α) : Prop :=
  ∀ a left, reader tokens = .ok (a, left) → left = e.written ∨
    ∃ left', e.Near left left' ∧ left' <:+ limit ∧ (e.IsApart → reader' tokens' = .ok (a, left'))

namespace Settles

variable {limit limit' : List Token} {reader reader' : Reader α}

theorem of_follows (h : e.Follows tokens tokens' limit reader reader') :
    e.Settles tokens tokens' limit reader reader' := by
  intro a left hrun
  obtain ⟨left', beside, within, same⟩ := h a left hrun
  cases beside with
  | seam => exact .inl rfl
  | inside inside => exact .inr ⟨left', .inside inside, within, same⟩

theorem mono (h : e.Settles tokens tokens' limit reader reader') (wider : limit <:+ limit') :
    e.Settles tokens tokens' limit' reader reader' := by
  intro a left hrun
  refine (h a left hrun).imp id ?_
  rintro ⟨left', near, within, same⟩
  exact ⟨left', near, within.trans wider, same⟩

theorem congr {reader'' : Reader α} (h : e.Settles tokens tokens' limit reader reader'')
    (same : e.IsApart → reader' tokens' = reader'' tokens') :
    e.Settles tokens tokens' limit reader reader' := by
  intro a left hrun
  refine (h a left hrun).imp id ?_
  rintro ⟨left', near, within, reads⟩
  exact ⟨left', near, within, fun apart => (same apart).trans (reads apart)⟩

theorem room_bind {next next' : Nat → Reader β}
    (h : e.Settles tokens tokens' limit (next tokens.length) (next' tokens'.length)) :
    e.Settles tokens tokens' limit (room >>= next) (room >>= next') :=
  h

/-- What settles comes after what is followed. -/
theorem bind {next next' : α → Reader β} (first : e.Follows tokens tokens' limit reader reader')
    (second : ∀ a left left', e.Beside left left' → left' <:+ limit →
      e.Settles left left' left' (next a) (next' a)) :
    e.Settles tokens tokens' limit (reader >>= next) (reader' >>= next') := by
  intro b left hrun
  obtain ⟨⟨a, between⟩, hfirst, hsecond⟩ := Except.of_bind_eq_ok hrun
  obtain ⟨between', beside, within, same⟩ := first a between hfirst
  refine (second a between between' beside within b left hsecond).imp id ?_
  rintro ⟨left', near, within', same'⟩
  refine ⟨left', near, within'.trans within, fun apart => ?_⟩
  rw [Reader.bind_eq_of_ok (same apart)]
  exact same' apart

/-- What comes after what settles may not go on at the seam. -/
theorem bind_near {next next' : α → Reader β} (first : e.Settles tokens tokens' limit reader reader')
    (rests : ∀ a b left, next a e.written = .ok (b, left) → left = e.written)
    (second : ∀ a left left', e.Near left left' → left' <:+ limit →
      e.Settles left left' left' (next a) (next' a)) :
    e.Settles tokens tokens' limit (reader >>= next) (reader' >>= next') := by
  intro b left hrun
  obtain ⟨⟨a, between⟩, hfirst, hsecond⟩ := Except.of_bind_eq_ok hrun
  rcases first a between hfirst with rfl | ⟨between', near, within, same⟩
  · exact .inl (rests a b left hsecond)
  · refine (second a between between' near within b left hsecond).imp id ?_
    rintro ⟨left', near, within', same'⟩
    refine ⟨left', near, within'.trans within, fun apart => ?_⟩
    rw [Reader.bind_eq_of_ok (same apart)]
    exact same' apart

theorem map {f : α → β} (h : e.Settles tokens tokens' limit reader reader') :
    e.Settles tokens tokens' limit (reader >>= fun a => Pure.pure (f a))
      (reader' >>= fun a => Pure.pure (f a)) := by
  intro b left hrun
  obtain ⟨⟨a, between⟩, hfirst, hsecond⟩ := Except.of_bind_eq_ok hrun
  cases hsecond
  refine (h a left hfirst).imp id ?_
  rintro ⟨left', near, within, same⟩
  exact ⟨left', near, within, fun apart => Reader.bind_eq_of_ok (same apart)⟩

theorem ite {c : Prop} [Decidable c] {other other' : Reader α}
    (yes : c → e.Settles tokens tokens' limit reader reader')
    (no : ¬ c → e.Settles tokens tokens' limit other other') :
    e.Settles tokens tokens' limit (if c then reader else other) (if c then reader' else other') := by
  by_cases h : c
  · rw [if_pos h, if_pos h]
    exact yes h
  · rw [if_neg h, if_neg h]
    exact no h

theorem current_bind_inside (inside : e.Inside tokens tokens') {next next' : Token → Reader β}
    (h : e.Settles tokens tokens' limit (next (head tokens)) (next' (head tokens))) :
    e.Settles tokens tokens' limit (current >>= next) (current >>= next') := by
  refine h.congr fun _ => ?_
  rw [← inside.head_eq]
  rfl

end Settles

/-! ### The end of a statement -/

/-- Whether a statement may end in front of a token without a semicolon. -/
theorem implies_end (e : Seam) : (e.next'.kind == .rightBrace || e.next'.kind == .endOfText
    || e.next'.newlineBefore) = true := by
  rcases e.ends with brace | ended | newline
  · rw [brace]
    rfl
  · rw [ended]
    rfl
  · rw [newline, Bool.or_true]

/-- **A statement ends** at the seam with the semicolon, and without. -/
theorem readStatementEnd_settles (beside : e.Beside tokens tokens') :
    e.Settles tokens tokens' tokens' readStatementEnd readStatementEnd := by
  cases beside with
  | seam =>
    intro a left hrun
    have found : ((head e.written).kind == .semicolon) = true := beq_iff_eq.mpr e.isSemicolon
    rw [readStatementEnd, Shifts.run_accept_bind, if_pos found] at hrun
    cases hrun
    refine .inr ⟨e.implied, .past, List.suffix_rfl, fun _ => ?_⟩
    have other : (e.next'.kind == .semicolon) = false := by
      rw [kind_next', beq_eq_false_iff_ne]
      exact fun same => e.parted (same ▸ List.mem_cons_self)
    rw [implied, readStatementEnd, Reader.accept_bind_cons other, if_neg Bool.false_ne_true,
      Reader.current_bind_cons, if_pos e.implies_end]
    rfl
  | inside inside =>
    refine .of_follows (.accept_bind_inside inside (by decide) (List.tail_suffix _)
      (fun _ _ beside _ => .pure beside) ?_)
    exact .current_bind inside (.ite (fun _ => .pure (.inside inside)) fun _ => .unexpected)

/-! ### Lists of statements -/

/-- A reader **only looks** at the kind of the current token. -/
def Looks (stop : Reader Bool) : Prop :=
  ∀ tokens b left, stop tokens = .ok (b, left) → left = tokens ∧
    ∀ tokens', (head tokens').kind = (head tokens).kind → stop tokens' = .ok (b, tokens')

theorem Near.kind_eq (near : e.Near tokens tokens') : (head tokens').kind = (head tokens).kind := by
  cases near with
  | past => exact e.kind_next'
  | inside inside => rw [inside.head_eq]

/-- At the seam, a list of statements does not go on. -/
theorem fails_manyUntil {stop : Reader Bool} {item : Reader α} (looks : Looks stop)
    (open' : ∀ left, stop e.written ≠ .ok (true, left)) (fails : e.Fails item) (n : Nat) :
    e.Fails (manyUntil stop item n) := by
  cases n with
  | zero => exact ⟨_, rfl⟩
  | succ n =>
    cases hstop : stop e.written with
    | error cause => exact Fails.bind ⟨cause, hstop⟩
    | ok result =>
      obtain ⟨b, left⟩ := result
      obtain ⟨rfl, -⟩ := looks _ b left hstop
      cases b with
      | true => exact absurd hstop (open' _)
      | false =>
        unfold Fails
        rw [manyUntil, Reader.bind_eq_of_ok hstop]
        exact fails.bind

/-- **A list of statements**: where one reading comes to its end, so does the other. -/
theorem manyUntil_settles {stop : Reader Bool} {item item' : Reader α} {n n' : Nat}
    (near : e.Near tokens tokens') (bound : tokens'.length ≤ n') (looks : Looks stop)
    (open' : ∀ left, stop e.written ≠ .ok (true, left)) (fails : e.Fails item)
    (h : ∀ left left', e.Near left left' → left' <:+ tokens' →
      e.Settles left left' left'.tail item item') {xs : List α} {left : List Token}
    (hrun : manyUntil stop item n tokens = .ok (xs, left)) :
    stop left = .ok (true, left) ∧ ∃ left', e.Near left left' ∧ left' <:+ tokens' ∧
      (e.IsApart → manyUntil stop item' n' tokens' = .ok (xs, left')) := by
  induction n generalizing tokens tokens' n' xs with
  | zero => cases hrun
  | succ n ih =>
    obtain ⟨m, rfl⟩ := near.exists_succ bound
    obtain ⟨⟨b, between⟩, hstop, hrun⟩ := Except.of_bind_eq_ok hrun
    obtain ⟨rfl, stops⟩ := looks _ b between hstop
    have stop' := stops tokens' near.kind_eq
    have run' : manyUntil stop item' (m + 1) tokens' = _ := Reader.bind_eq_of_ok stop'
    cases b with
    | true =>
      cases hrun
      exact ⟨hstop, tokens', near, List.suffix_rfl, fun _ => run'⟩
    | false =>
      obtain ⟨⟨x, between⟩, hitem, hrun⟩ := Except.of_bind_eq_ok hrun
      obtain ⟨⟨xs', left''⟩, hlist, hrun⟩ := Except.of_bind_eq_ok hrun
      cases hrun
      rcases h _ _ near List.suffix_rfl x between hitem with rfl | ⟨between', near', within, same⟩
      · obtain ⟨cause, stuck⟩ := fails_manyUntil looks open' fails n
        cases stuck.symm.trans hlist
      · have below := within.trans (List.tail_suffix tokens')
        obtain ⟨stopped, left', near'', within', same'⟩ := ih near' (EndAlike.length_tail_le bound within)
          (fun left left' near hl => h left left' near (hl.trans below)) hlist
        refine ⟨stopped, left', near'', within'.trans below, fun apart => ?_⟩
        rw [run', if_neg Bool.false_ne_true, Reader.bind_eq_of_ok (same apart),
          Reader.bind_eq_of_ok (same' apart)]
        rfl

end Seam

end Scriptlet
