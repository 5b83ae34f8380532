import Scriptlet.Token.Lexer

/-!
# How tokens are spelled

The grammar goes by the kinds of tokens, and the trees that it makes keep their texts.
The two agree, because a text is cut into tokens in one place: a word of the
vocabulary has the kind that the vocabulary gives it, a sign likewise, and a regular
expression starts with a slash.
-/

namespace Scriptlet

/-- The words and signs that have a meaning of their own. -/
def fixedTokens : List (Text × TokenKind) :=
  keywords ++ signs

/-- A token **is spelled as its kind asks**: by the vocabulary, if the kind occurs in it,
and with a slash if it is a regular expression. -/
structure Token.IsSpelled (t : Token) : Prop where
  /-- A token of a kind of the vocabulary is in the vocabulary. -/
  fixed : t.kind ∈ fixedTokens.map Prod.snd → (t.text, t.kind) ∈ fixedTokens
  /-- A regular expression has a slash. -/
  slash : t.kind = .regexp → t.text.contains '/' = true

namespace Token

/-- A token of a kind that is not in the vocabulary may have any text. -/
theorem isSpelled_of_free {t : Token} (free : t.kind ∉ fixedTokens.map Prod.snd)
    (noRegexp : t.kind ≠ .regexp) : t.IsSpelled :=
  ⟨fun h => absurd h free, fun h => absurd h noRegexp⟩

/-- A token that is in the vocabulary is spelled so. -/
theorem isSpelled_of_fixed {t : Token} (h : (t.text, t.kind) ∈ fixedTokens) : t.IsSpelled := by
  refine ⟨fun _ => h, fun hr => ?_⟩
  have none : ∀ e ∈ fixedTokens, e.2 ≠ .regexp := by decide
  exact absurd hr (none _ h)

end Token

/-! ## Scans -/

/-- A kind and a source text **go together** if a token of them is spelled as it should
be, wherever it stands. -/
def TokenKind.Spells (kind : TokenKind) (source : Text) : Prop :=
  ∀ line column newlineBefore,
    Token.IsSpelled ⟨kind, keptText kind source, line, column, newlineBefore⟩

theorem TokenKind.spells_of_free {kind : TokenKind} {source : Text}
    (free : kind ∉ fixedTokens.map Prod.snd) (noRegexp : kind ≠ .regexp) : kind.Spells source :=
  fun _ _ _ => Token.isSpelled_of_free free noRegexp

theorem TokenKind.spells_of_fixed {kind : TokenKind} {source : Text}
    (h : (source, kind) ∈ fixedTokens) : kind.Spells source := by
  have noTemplate : ∀ e ∈ fixedTokens, e.2 ≠ .template := by decide
  intro line column newlineBefore
  refine Token.isSpelled_of_fixed ?_
  simpa [keptText, noTemplate _ h] using h

/-- Whatever word it is, its kind goes with it. -/
theorem kindOfWord_spells (word : Text) : (kindOfWord word).Spells word := by
  unfold kindOfWord
  split
  · rename_i kind found
    obtain ⟨before, after, same, -⟩ := List.lookup_eq_some_iff.mp found
    refine TokenKind.spells_of_fixed (List.mem_append_left _ ?_)
    rw [same]
    simp
  · split
    · exact TokenKind.spells_of_free (by decide) (by decide)
    · exact TokenKind.spells_of_free (by decide) (by decide)

/-- The code points that the body of a regular expression takes include its first. -/
theorem regexpBodyLength?_pos {inClass : Bool} {start n : Nat} {t : Text} (hs : 0 < start)
    (h : regexpBodyLength? inClass start t = some n) : 0 < n := by
  fun_induction regexpBodyLength? inClass start t with
  | case1 => cases h
  | case2 => cases h
  | case3 => cases h
  | case4 inClass start c _ _ _ rest ih => exact ih (by omega) h
  | case5 inClass start c rest _ _ _ ih => exact ih (by omega) h
  | case6 inClass start c rest _ _ _ _ ih => exact ih (by omega) h
  | case7 => cases h; omega
  | case8 inClass start c rest _ _ _ _ _ ih => exact ih (by omega) h

/-- A regular expression is spelled with the slash that it starts with. -/
theorem regexp_spells {c : CodePoint} {rest : Text} {n : Nat} (hc : c = '/')
    (h : regexpLength? (c :: rest) = some n) : TokenKind.regexp.Spells ((c :: rest).take n) := by
  have free : TokenKind.regexp ∉ fixedTokens.map Prod.snd := by decide
  have pos : 0 < n := by
    obtain ⟨body, hbody, rfl⟩ := Option.map_eq_some_iff.mp h
    exact Nat.lt_add_right _ (regexpBodyLength?_pos (by decide) hbody)
  intro line column newlineBefore
  refine ⟨fun hfixed => absurd hfixed free, fun _ => ?_⟩
  cases n with
  | zero => exact absurd pos (Nat.lt_irrefl 0)
  | succ n => simp [keptText, hc]

/-- A sign that a text starts with is what is taken of the text. -/
theorem scanSign_spells {t : Text} {kind : TokenKind} {n : Nat}
    (h : scanSign t = .ok (.token kind n)) : kind.Spells (t.take n) := by
  unfold scanSign at h
  split at h
  · rename_i sign kind' found
    cases h
    have starts := List.find?_some found
    refine TokenKind.spells_of_fixed (List.mem_append_right _ ?_)
    rw [← List.prefix_iff_eq_take.mp (List.isPrefixOf_iff_prefix.mp starts)]
    exact List.mem_of_find?_eq_some found
  · cases h

/-- A scan that measures a token of a kind with any text. -/
theorem tokenOr_spells {cause : LexCause} {kind kind' : TokenKind} {length? : Option Nat}
    {n : Nat} {source : Text} (free : kind ∉ fixedTokens.map Prod.snd)
    (noRegexp : kind ≠ .regexp)
    (h : tokenOr cause kind length? = .ok (.token kind' n)) : kind'.Spells source := by
  unfold tokenOr at h
  split at h
  · cases h
    exact TokenKind.spells_of_free free noRegexp
  · cases h

/-- **A scan** gives a kind that goes with the text it takes. -/
theorem scan_spells {regexpAllowed : Bool} {c : CodePoint} {rest : Text} {kind : TokenKind}
    {n : Nat} (h : scan regexpAllowed c rest = .ok (.token kind n)) :
    kind.Spells ((c :: rest).take n) := by
  unfold scan at h
  dsimp only at h
  split at h
  · cases h
  split at h
  · cases h
  split at h
  · split at h <;> cases h
  split at h
  · exact tokenOr_spells (by decide) (by decide) h
  split at h
  · exact tokenOr_spells (by decide) (by decide) h
  split at h
  · exact tokenOr_spells (by decide) (by decide) h
  split at h
  · simp only [Except.ok.injEq, Scan.token.injEq] at h
    obtain ⟨rfl, rfl⟩ := h
    rw [← List.prefix_iff_eq_take.mp (List.takeWhile_prefix _)]
    exact kindOfWord_spells _
  split at h
  · rename_i slash
    unfold tokenOr at h
    split at h
    · rename_i length hlength
      cases h
      exact regexp_spells (by simpa using (Bool.and_eq_true_iff.mp slash).1) hlength
    · cases h
  · exact scanSign_spells h

/-! ## The walk over the text -/

/-- Moving on changes no token. -/
@[simp] theorem LexState.tokens_advance (s : LexState) (c : CodePoint) :
    (s.advance c).tokens = s.tokens := by
  unfold advance
  split <;> rfl

/-- Cutting on keeps what holds of all tokens, if it holds of those that a scan finds. -/
theorem lexFrom_forall {P : Token → Prop}
    (found : ∀ {allowed : Bool} {c : CodePoint} {rest : Text} {kind : TokenKind} {n : Nat},
      scan allowed c rest = .ok (.token kind n) → ∀ line column newlineBefore,
        P ⟨kind, keptText kind ((c :: rest).take n), line, column, newlineBefore⟩)
    {s s' : LexState} {inside : Nat} {t : Text} (hs : ∀ token ∈ s.tokens, P token)
    (h : lexFrom s inside t = .ok s') : ∀ token ∈ s'.tokens, P token := by
  induction t generalizing s inside with
  | nil =>
    cases inside <;> cases h <;> exact hs
  | cons c rest ih =>
    cases inside with
    | succ inside => exact ih (by simpa using hs) h
    | zero =>
      rw [lexFrom] at h
      split at h
      · cases h
      · exact ih (by simpa [LexState.noteGap] using hs) h
      · rename_i kind n hscan
        refine ih (fun token htoken => ?_) h
        simp only [LexState.tokens_advance, LexState.emit, List.mem_cons] at htoken
        rcases htoken with rfl | htoken
        · exact found hscan _ _ _
        · exact hs token htoken

/-- **What holds of whatever a scan finds holds of all tokens of a text**, if it holds of the one
for its end. -/
theorem forall_of_tokenize {P : Token → Prop} {source : Text} {line : Int} {tokens : List Token}
    (found : ∀ {allowed : Bool} {c : CodePoint} {rest : Text} {kind : TokenKind} {n : Nat},
      scan allowed c rest = .ok (.token kind n) → ∀ line column newlineBefore,
        P ⟨kind, keptText kind ((c :: rest).take n), line, column, newlineBefore⟩)
    (last : ∀ line column newlineBefore, P ⟨.endOfText, [], line, column, newlineBefore⟩)
    (h : tokenize source line = .ok tokens) : ∀ token ∈ tokens, P token := by
  unfold tokenize at h
  cases hs : lexFrom ⟨line, 1, false, []⟩ 0 source with
  | error e => simp [hs, Except.map] at h
  | ok s =>
    simp only [hs, Except.map, Except.ok.injEq] at h
    subst h
    intro token htoken
    simp only [LexState.emit, List.mem_reverse, List.mem_cons] at htoken
    rcases htoken with rfl | htoken
    · exact last _ _ _
    · exact lexFrom_forall found (by simp) hs token htoken

/-- **All tokens of a text are spelled as their kinds ask.** -/
theorem tokenize_spelled {source : Text} {line : Int} {tokens : List Token}
    (h : tokenize source line = .ok tokens) : ∀ token ∈ tokens, token.IsSpelled :=
  forall_of_tokenize scan_spells
    (TokenKind.spells_of_free (by decide) (by decide) : TokenKind.endOfText.Spells []) h

end Scriptlet
