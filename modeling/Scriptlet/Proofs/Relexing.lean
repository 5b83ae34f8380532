import Scriptlet.Proofs.Pieces

/-!
# Cutting printed tokens again

Tokens *are printed* as their sources, each behind a line feed or a space, depending on
whether the end of a line came before it. The printed text is cut into the same tokens,
up to the places that they record. So nothing that follows, which sees no more of a text
than its tokens, can depend on comments or on how much blank there is.

What makes this true is that a scan is local: it finds the same token wherever its source
stands before a separator, and whether a slash opens a regular expression is decided by
the token before alone.
-/

namespace Scriptlet

/-- What is in front of a printed token. -/
def Token.lead (newline : Bool) : CodePoint :=
  if newline then '\n' else ' '

/-- A token **is printed** as its source behind a separator. -/
def Token.print (t : Token) : Text :=
  Token.lead t.newlineBefore :: t.source

/-- What a token **says**, wherever it stands: its kind, its text, and whether a line ends
before it. -/
def Token.content (t : Token) : TokenKind × Text × Bool :=
  (t.kind, t.text, t.newlineBefore)

/-! ## What the pieces say -/

/-- The token of a content, at no place in particular. -/
def tokenOf (content : TokenKind × Text × Bool) : Token :=
  ⟨content.1, content.2.1, 0, 0, content.2.2⟩

/-- The contents of the tokens that pieces make, the end of the text included. -/
def contents (newline : Bool) : List SourcePiece → List (TokenKind × Text × Bool)
  | [] => [(.endOfText, [], newline)]
  | .gap source :: pieces => contents (newline || source.any isLineEnd) pieces
  | .token kind source :: pieces => (kind, keptText kind source, newline) :: contents false pieces

/-- The walk emits tokens with the contents of the pieces. -/
theorem content_foldl_take (pieces : List SourcePiece) (s : LexState) :
    ((pieces.foldl LexState.take s).emit .endOfText []).tokens.reverse.map Token.content
      = s.tokens.reverse.map Token.content ++ contents s.newline pieces := by
  induction pieces generalizing s with
  | nil =>
    rw [List.foldl_nil, LexState.emit, List.reverse_cons, List.map_append]
    rfl
  | cons piece pieces ih =>
    rw [List.foldl_cons, ih]
    cases piece with
    | gap source =>
      unfold LexState.take
      rw [LexState.tokens_pass, LexState.newline_pass]
      rfl
    | token kind source =>
      unfold LexState.take
      rw [LexState.tokens_pass, LexState.newline_pass, LexState.emit, List.reverse_cons,
        List.map_append, List.append_assoc]
      rfl

/-- A text that is cut up to its end has tokens with the contents of its pieces. -/
theorem Cuts.tokenize_contents {after : Bool} {source : Text} {pieces : List SourcePiece}
    (cuts : Cuts true source pieces after []) (line : Int) :
    ∃ tokens, tokenize source line = .ok tokens
      ∧ tokens.map Token.content = contents false pieces :=
  ⟨_, cuts.tokenize_eq_ok line, content_foldl_take pieces (.start line)⟩

/-! ## The printed text -/

/-- The text that contents are printed as. -/
def printed (contents : List (TokenKind × Text × Bool)) : Text :=
  contents.flatMap fun content => (tokenOf content).print

theorem printed_map_content (tokens : List Token) :
    printed (tokens.map Token.content) = tokens.flatMap Token.print := by
  unfold printed
  rw [List.flatMap_map]
  rfl

/-- What is printed separates from what is in front of it. -/
theorem printed_separates (contents : List (TokenKind × Text × Bool)) :
    (printed contents).Separates := by
  intro c hc
  cases contents with
  | nil => cases hc
  | cons content contents =>
    obtain rfl : Token.lead content.2.2 = c := Option.some.inj hc
    unfold Token.lead
    split
    · exact .inr rfl
    · exact .inl rfl

/-- A separator is a gap, and it holds the end of a line if one is wanted. -/
theorem scan_lead (allowed newline : Bool) (rest : Text) :
    scan allowed (Token.lead newline) rest = .ok (.gap 1) := by
  cases newline <;> rfl

theorem isLineEnd_lead (newline : Bool) : isLineEnd (Token.lead newline) = newline := by
  cases newline <;> rfl

/-- A separator is cut off as a gap. -/
theorem Cuts.lead {allowed after : Bool} {t remainder : Text} {pieces : List SourcePiece}
    (more : Cuts allowed t pieces after remainder) (newline : Bool) :
    Cuts allowed (Token.lead newline :: t) (.gap [Token.lead newline] :: pieces) after
      remainder :=
  .gap (scan_lead allowed newline t) more

/-- The source of a token is cut off again in front of what separates. -/
theorem Cuts.tokenAgain {allowed after : Bool} {c : CodePoint} {rest u remainder : Text}
    {kind : TokenKind} {n : Nat} {pieces : List SourcePiece}
    (found : scan allowed c rest = .ok (.token kind n)) (hu : u.Separates)
    (more : Cuts (!kind.endsValue) u pieces after remainder) :
    Cuts allowed ((c :: rest).take n ++ u) (.token kind ((c :: rest).take n) :: pieces) after
      remainder := by
  obtain ⟨pos, le, again⟩ := scan_recurs found
  obtain ⟨n, rfl⟩ : ∃ k, n = k + 1 := ⟨n - 1, by omega⟩
  have length : ((c :: rest).take (n + 1)).length = n + 1 := List.length_take_of_le le
  have source : (c :: rest).take (n + 1) ++ u = c :: (rest.take n ++ u) := rfl
  have piece : (c :: (rest.take n ++ u)).take (n + 1) = (c :: rest).take (n + 1) := by
    rw [← source, List.take_left' length]
  have left : (c :: (rest.take n ++ u)).drop (n + 1) = u := by
    rw [← source, List.drop_left' length]
  rw [source, ← piece]
  exact .token (again u hu) (by rwa [left])

/-- What stands in front of a printed token says whether a line ends before it. -/
theorem contents_lead (newline : Bool) (pieces : List SourcePiece) :
    contents false (.gap [Token.lead newline] :: pieces) = contents newline pieces := by
  rw [contents, List.any_cons, isLineEnd_lead, List.any_nil, Bool.or_false, Bool.false_or]

/-- **What is printed of pieces is cut** into pieces that say the same. -/
theorem Cuts.printed {allowed after : Bool} {t remainder : Text} {pieces : List SourcePiece}
    (cuts : Cuts allowed t pieces after remainder) (newline : Bool) :
    ∃ pieces' after', Cuts allowed (printed (contents newline pieces)) pieces' after' []
      ∧ contents false pieces' = contents newline pieces := by
  induction cuts generalizing newline with
  | done allowed =>
    -- Nothing is left but the end of the text, of which no more than its separator is printed.
    refine ⟨[.gap [Token.lead newline]], allowed, ?_, contents_lead newline []⟩
    exact Cuts.lead (.done allowed []) newline
  | gap _ _ ih => exact ih _
  | @token allowed _ c rest _ kind n pieces found _ ih =>
    obtain ⟨pieces', after', cuts', same⟩ := ih false
    have whole : Scriptlet.printed (contents newline (.token kind ((c :: rest).take n) :: pieces))
        = Token.lead newline
          :: ((c :: rest).take n ++ Scriptlet.printed (contents false pieces)) := by
      have source := scan_keeps found 0 0 newline
      conv => rhs; rw [← source]
      rfl
    refine ⟨.gap [Token.lead newline] :: .token kind ((c :: rest).take n) :: pieces',
      after', ?_, ?_⟩
    · rw [whole]
      exact Cuts.lead (.tokenAgain found (printed_separates _) cuts') newline
    · rw [contents_lead, contents, contents, same]

/-- **Printed tokens are cut into the same tokens.** If a text can be cut into tokens, then so
can what they are printed as, from whatever line on, and the tokens are the same in kind, in
text, and in whether a line ends before them. -/
theorem tokenize_printed {source : Text} {line : Int} {tokens : List Token}
    (h : tokenize source line = .ok tokens) (line' : Int) :
    ∃ tokens', tokenize (tokens.flatMap Token.print) line' = .ok tokens'
      ∧ tokens'.map Token.content = tokens.map Token.content := by
  rcases tokenize_cases source line with
    ⟨pieces, after, cuts, same⟩ | ⟨pieces, after, remainder, cause, cuts, stuck, same⟩
  · obtain ⟨tokens₁, same₁, contents₁⟩ := cuts.tokenize_contents line
    cases h.symm.trans same₁
    obtain ⟨pieces', after', cuts', contents'⟩ := cuts.printed false
    rw [← contents₁, printed_map_content] at cuts'
    obtain ⟨tokens', same', contents''⟩ := cuts'.tokenize_contents line'
    exact ⟨tokens', same', by rw [contents'', contents', contents₁]⟩
  · cases h.symm.trans same

/-- A text in which one slash divides and the next opens a regular expression, with a comment
that ends a line, printed and cut again. -/
theorem tokenize_printed_of_division :
    ∃ tokens tokens', tokenize "a/ /b/g/*\n*/ `c`" 1 = .ok tokens
      ∧ tokens.flatMap Token.print = " a / /b/g\n`c` "
      ∧ tokenize " a / /b/g\n`c` " 7 = .ok tokens'
      ∧ tokens'.map Token.content = tokens.map Token.content := by
  have prints : (tokenize "a/ /b/g/*\n*/ `c`" 1).toOption.map (·.flatMap Token.print)
      = some (" a / /b/g\n`c` " : Text) := by decide +kernel
  cases cut : tokenize "a/ /b/g/*\n*/ `c`" 1 with
  | error e => rw [cut] at prints; cases prints
  | ok tokens =>
    rw [cut] at prints
    have printed : tokens.flatMap Token.print = " a / /b/g\n`c` " := Option.some.inj prints
    obtain ⟨tokens', cut', same⟩ := tokenize_printed cut 7
    exact ⟨tokens, tokens', rfl, printed, printed ▸ cut', same⟩

end Scriptlet
