import Scriptlet.Proofs.Pieces

/-!
# The layout of tokens

Tokens record where they start, and cutting a text loses nothing of it: in front of every
token is a gap, then comes its source, and so on up to the end of the text. Places are
*defined* here, by counting what comes before an offset, with no reference to the walk that
keeps a line and a column. The theorem is that the walk keeps the same.

The invariant of the walk (`LexState.Stands`) speaks of two offsets: where the last token
stops, and where the walk is. Between the two lies the gap so far, of which the state
remembers no more than whether it holds the end of a line.
-/

namespace Scriptlet

/-! ## Places -/

/-- Whether a code point makes the next one start a line. A carriage return does not: it
ends a line for the grammar, but lines are not counted by it. -/
def startsLine (c : CodePoint) : Bool :=
  c == '\n' || c == 0x2028 || c == 0x2029

/-- **The place of an offset** in a text that starts on the given line: as many lines on as
lines have been started before it, and one column for it and for every code point between
it and where its line starts. -/
def placeAt (source : Text) (line : Int) (offset : Nat) : Place :=
  let before := source.take offset
  ⟨line + before.countP startsLine, 1 + (before.reverse.takeWhile (!startsLine ·)).length⟩

example : placeAt "a\n  bb = 1" 1 4 = ⟨2, 3⟩ := by decide

/-- Between two offsets a line is started, or a column is counted for each code point. -/
theorem placeAt_add {source : Text} {line : Int} {offset n : Nat} (h : offset + n ≤ source.length)
    (same : placeAt source line offset = placeAt source line (offset + n)) : n = 0 := by
  have length : ((source.drop offset).take n).length = n :=
    List.length_take_of_le (by rw [List.length_drop]; omega)
  unfold placeAt at same
  dsimp only at same
  rw [Place.mk.injEq, List.take_add, List.countP_append, List.reverse_append] at same
  obtain ⟨lines, columns⟩ := same
  have none : ((source.drop offset).take n).countP startsLine = 0 := by omega
  rw [List.takeWhile_append_of_pos fun c hc => by
    rw [Bool.eq_false_iff.mpr (List.countP_eq_zero.mp none c (List.mem_reverse.mp hc))]; rfl,
    List.length_append, List.length_reverse, length] at columns
  omega

/-- **A place is that of one offset** in a text. -/
theorem placeAt_inj {source : Text} {line : Int} {a b : Nat} (ha : a ≤ source.length)
    (hb : b ≤ source.length) (h : placeAt source line a = placeAt source line b) : a = b := by
  rcases Nat.le_total a b with le | le
  · obtain ⟨n, rfl⟩ := Nat.exists_eq_add_of_le le
    rw [placeAt_add hb h, Nat.add_zero]
  · obtain ⟨n, rfl⟩ := Nat.exists_eq_add_of_le le
    rw [placeAt_add ha h.symm, Nat.add_zero]

theorem LexState.place_advance_eq (s : LexState) (c : CodePoint) :
    (s.advance c).place = if startsLine c then ⟨s.line + 1, 1⟩ else ⟨s.line, s.column + 1⟩ := by
  unfold advance startsLine
  split <;> rfl

/-- Moving past one code point keeps the place of the state that of the offset. -/
theorem LexState.place_advance {s : LexState} {source : Text} {line : Int} {offset : Nat}
    {c : CodePoint} (h : s.place = placeAt source line offset) (hc : source[offset]? = some c) :
    (s.advance c).place = placeAt source line (offset + 1) := by
  have before : source.take (offset + 1) = source.take offset ++ [c] := by
    rw [List.take_add_one, hc]; rfl
  unfold placeAt at h ⊢
  dsimp only at h ⊢
  obtain ⟨hline, hcolumn⟩ := Place.mk.inj h
  rw [place_advance_eq, before, List.countP_append, List.countP_singleton, List.reverse_append,
    List.reverse_singleton, List.singleton_append, hline, hcolumn]
  by_cases starts : startsLine c = true
  · rw [if_pos starts, if_pos starts, List.takeWhile_cons_of_neg (by rw [starts]; exact nofun),
      Int.natCast_add, Int.add_assoc]
    rfl
  · rw [if_neg starts, if_neg starts,
      List.takeWhile_cons_of_pos (by rw [Bool.eq_false_iff.mpr starts]; rfl)]
    rfl

/-- Moving past a text that stands at the offset. -/
theorem LexState.place_pass {s : LexState} {source t : Text} {line : Int} {offset : Nat}
    (h : s.place = placeAt source line offset) (ht : t <+: source.drop offset) :
    (s.pass t).place = placeAt source line (offset + t.length) := by
  induction t generalizing s offset with
  | nil => exact h
  | cons c rest ih =>
    obtain ⟨more, same⟩ := ht
    have here : source[offset]? = some c := by
      rw [← List.head?_drop, ← same]; rfl
    have next : rest <+: source.drop (offset + 1) := by
      rw [← List.drop_drop, ← same]
      exact List.prefix_append rest more
    rw [List.length_cons, Nat.add_comm rest.length, ← Nat.add_assoc]
    exact ih (place_advance h here) next

/-! ## Tokens in place -/

/-- **Tokens are laid out** in a text, up to where the last of them stops: each stands
behind a gap, at the place it records, and knows whether the gap holds the end of a line. -/
inductive Laid (source : Text) (line : Int) : List Token → Nat → Prop
  | nil : Laid source line [] 0
  | snoc {tokens : List Token} {token : Token} {stop offset : Nat}
    (before : Laid source line tokens stop) (le : stop ≤ offset)
    (gap : Text.IsGap (source.slice stop offset) (source.drop offset))
    (stands : token.source <+: source.drop offset)
    (place : ⟨token.line, token.column⟩ = placeAt source line offset)
    (newline : token.newlineBefore = (source.slice stop offset).any isLineEnd) :
    Laid source line (tokens ++ [token]) (offset + token.source.length)

/-- The invariant of the walk: the tokens so far are laid out up to `stop`, the walk **stands**
at `offset`, and between the two is a gap. -/
structure LexState.Stands (source : Text) (line : Int) (s : LexState) (stop offset : Nat) :
    Prop where
  /-- The tokens are laid out. -/
  laid : Laid source line s.tokens.reverse stop
  /-- The walk is past them. -/
  le : stop ≤ offset
  /-- The walk is in the text. -/
  inside : offset ≤ source.length
  /-- There is a gap since. -/
  gap : Text.IsGap (source.slice stop offset) (source.drop offset)
  /-- The state knows whether the gap holds the end of a line. -/
  newline : s.newline = (source.slice stop offset).any isLineEnd
  /-- The state knows the place. -/
  place : s.place = placeAt source line offset
  /-- None of the tokens ends the text, and none is empty. -/
  proper : ∀ token ∈ s.tokens, token.kind ≠ .endOfText ∧ token.source ≠ []

namespace LexState.Stands

variable {source : Text} {line : Int} {s : LexState} {stop offset : Nat}

theorem start (source : Text) (line : Int) : (LexState.start line).Stands source line 0 0 where
  laid := .nil
  le := Nat.le_refl 0
  inside := Nat.zero_le _
  gap := .nil _
  newline := rfl
  place := by
    show (⟨line, 1⟩ : Place) = ⟨line + ((0 : Nat) : Int), 1⟩
    rw [Int.natCast_zero, Int.add_zero]
  proper := nofun

/-- What stands at the offset of the walk is in the text. -/
theorem inside_add (h : s.Stands source line stop offset) {t following : Text}
    (split : source.drop offset = t ++ following) : offset + t.length ≤ source.length := by
  have length := congrArg List.length split
  have inside := h.inside
  rw [List.length_drop, List.length_append] at length
  omega

/-- What is emitted is laid out. -/
theorem laid_emit (h : s.Stands source line stop offset) (kind : TokenKind) (text : Text)
    (stands : Token.source ⟨kind, text, s.line, s.column, s.newline⟩ <+: source.drop offset) :
    Laid source line (s.emit kind text).tokens.reverse
      (offset + (Token.source ⟨kind, text, s.line, s.column, s.newline⟩).length) := by
  rw [emit, List.reverse_cons]
  exact .snoc h.laid h.le h.gap stands h.place h.newline

/-- A gap keeps the invariant: it makes the gap since the last token longer. -/
theorem take_gap (h : s.Stands source line stop offset) {gap following : Text}
    (split : source.drop offset = gap ++ following) (isGap : gap.IsGap following) :
    (s.take (.gap gap)).Stands source line stop (offset + gap.length) := by
  have rest : source.drop (offset + gap.length) = following := by
    rw [← List.drop_drop, split, List.drop_left]
  -- The gap so far and the new one are one gap; what the state notes of either is noted of both.
  have longer : source.slice stop (offset + gap.length) = source.slice stop offset ++ gap := by
    have here : (source.drop stop).drop (offset - stop) = gap ++ following := by
      rw [List.drop_drop, Nat.add_sub_cancel' h.le, split]
    unfold Text.slice
    rw [Nat.sub_add_comm h.le, List.take_add, here, List.take_left]
  constructor
  · show Laid source line ((s.noteGap gap).pass gap).tokens.reverse stop
    rw [tokens_pass]
    exact h.laid
  · exact Nat.le_add_right_of_le h.le
  · exact h.inside_add split
  · rw [longer, rest]
    exact Text.IsGap.append (split ▸ h.gap) isGap
  · rw [longer, List.any_append, ← h.newline]
    exact newline_pass _ _
  · exact place_pass (s := s.noteGap gap) h.place (by rw [split]; exact List.prefix_append _ _)
  · show ∀ token ∈ ((s.noteGap gap).pass gap).tokens, _
    rw [tokens_pass]
    exact h.proper

/-- A token keeps the invariant: it is laid out, and a new gap begins where it stops. -/
theorem take_token (h : s.Stands source line stop offset) {kind : TokenKind} {text following : Text}
    (split : source.drop offset = text ++ following) (noEnd : kind ≠ .endOfText)
    (notEmpty : text ≠ [])
    (keeps : ∀ line column newlineBefore,
      Token.source ⟨kind, keptText kind text, line, column, newlineBefore⟩ = text) :
    (s.take (.token kind text)).Stands source line (offset + text.length)
      (offset + text.length) := by
  have here : text <+: source.drop offset := by rw [split]; exact List.prefix_append _ _
  have empty : source.slice (offset + text.length) (offset + text.length) = [] :=
    Text.slice_self source _
  constructor
  · show Laid source line ((s.emit kind (keptText kind text)).pass text).tokens.reverse _
    rw [tokens_pass]
    have laid := h.laid_emit kind (keptText kind text) (by rw [keeps]; exact here)
    rwa [keeps] at laid
  · exact Nat.le_refl _
  · exact h.inside_add split
  · rw [empty]
    exact .nil _
  · rw [empty]
    exact newline_pass _ _
  · exact place_pass (s := s.emit kind (keptText kind text)) h.place here
  · show ∀ token ∈ ((s.emit kind (keptText kind text)).pass text).tokens, _
    rw [tokens_pass]
    intro token htoken
    rcases List.mem_cons.mp htoken with rfl | htoken
    · exact ⟨noEnd, by rwa [keeps]⟩
    · exact h.proper token htoken

end LexState.Stands

/-- **The pieces of a text keep the invariant**, up to what remains. -/
theorem Cuts.stands {allowed after : Bool} {t remainder source : Text} {pieces : List SourcePiece}
    {line : Int} {s : LexState} {stop offset : Nat} (cuts : Cuts allowed t pieces after remainder)
    (ht : source.drop offset = t) (h : s.Stands source line stop offset) :
    ∃ stop' offset', (pieces.foldl LexState.take s).Stands source line stop' offset'
      ∧ source.drop offset' = remainder := by
  -- Which piece comes next depends on the piece before, so the induction is on the cuts, with
  -- the state of the walk general: each piece takes it from one place to the next.
  induction cuts generalizing s stop offset with
  | done => exact ⟨stop, offset, h, ht⟩
  | @gap _ _ c rest _ n _ found _ ih =>
    obtain ⟨-, -, isGap⟩ := scan_isGap found
    have split := ht.trans (List.take_append_drop n (c :: rest)).symm
    refine ih ?_ (h.take_gap split isGap)
    rw [← List.drop_drop, split, List.drop_left]
  | @token _ _ c rest _ kind n _ found _ ih =>
    obtain ⟨pos, -, -⟩ := scan_recurs found
    have split := ht.trans (List.take_append_drop n (c :: rest)).symm
    have notEmpty : (c :: rest).take n ≠ [] := by
      cases n with
      | zero => exact absurd pos (Nat.lt_irrefl 0)
      | succ n => exact nofun
    refine ih ?_ (h.take_token split (scan_kind found).1 notEmpty (scan_keeps found))
    rw [← List.drop_drop, split, List.drop_left]

/-- **Tokens are laid out in the text without loss.** Where a text can be cut into tokens,
they are laid out in it up to its end, which the last of them, and no other, stands for.
Where it cannot, the tokens found so far are laid out, a gap follows them, and behind the
gap stands what the scan is stuck on; the error tells the place of its first code point. -/
theorem tokenize_lays_out (source : Text) (line : Int) :
    match tokenize source line with
    | .ok tokens =>
      Laid source line tokens source.length ∧
        ∃ proper last, tokens = proper ++ [last] ∧ last.kind = .endOfText ∧ last.text = []
          ∧ ∀ token ∈ proper, token.kind ≠ .endOfText ∧ token.source ≠ []
    | .error e =>
      ∃ tokens stop offset, Laid source line tokens stop ∧ stop ≤ offset
        ∧ Text.IsGap (source.slice stop offset) (source.drop offset)
        ∧ IsStuck (!(tokens.getLast?.any (·.kind.endsValue))) (source.drop offset) e.cause
        ∧ e.place = some (placeAt source line offset) := by
  rcases tokenize_cases source line with
    ⟨pieces, after, cuts, same⟩ | ⟨pieces, after, remainder, cause, cuts, stuck, same⟩
  · rw [same]
    obtain ⟨stop, offset, stands, atEnd⟩ := cuts.stands rfl (.start source line)
    generalize pieces.foldl LexState.take (.start line) = s at stands
    -- Nothing remains behind the offset, and it is in the text: it is the end.
    have atLength : offset = source.length :=
      Nat.le_antisymm stands.inside (List.drop_eq_nil_iff.mp atEnd)
    subst atLength
    have laid := stands.laid_emit .endOfText [] List.nil_prefix
    refine ⟨laid, s.tokens.reverse, _, List.reverse_cons, rfl, rfl, fun token htoken => ?_⟩
    exact stands.proper token (List.mem_reverse.mp htoken)
  · rw [same]
    obtain ⟨stop, offset, stands, there⟩ := cuts.stands rfl (.start source line)
    obtain ⟨-, allowed⟩ := cuts.lexFrom_eq (s := .start line) rfl
    generalize pieces.foldl LexState.take (.start line) = s at stands allowed
    refine ⟨s.tokens.reverse, stop, offset, stands.laid, stands.le, stands.gap, ?_,
      congrArg some stands.place⟩
    rw [there, List.getLast?_reverse]
    rw [← allowed] at stuck
    exact stuck

/-! ## Where a token stands -/

namespace Laid

variable {source : Text} {line : Int} {before after tokens : List Token} {t : Token}
  {stop offset : Nat}

/-- Each of some tokens that are laid out is so behind those before it. -/
theorem split (h : Laid source line tokens stop) (same : tokens = before ++ t :: after) :
    ∃ offset, Laid source line (before ++ [t]) (offset + t.source.length)
      ∧ offset + t.source.length ≤ stop := by
  induction h generalizing after with
  | nil => exact absurd same.symm (List.append_ne_nil_of_right_ne_nil _ nofun)
  | @snoc tokens token stop offset laid le gap stands place newline ih =>
    rcases List.eq_nil_or_concat after with rfl | ⟨after, u, rfl⟩
    · obtain ⟨rfl, rfl⟩ := List.append_singleton_inj.mp same
      exact ⟨offset, .snoc laid le gap stands place newline, Nat.le_refl _⟩
    · rw [List.concat_eq_append, ← List.cons_append, ← List.append_assoc] at same
      obtain ⟨offset', laid', le'⟩ := ih (List.append_singleton_inj.mp same).1
      exact ⟨offset', laid', Nat.le_trans le' (Nat.le_trans le (Nat.le_add_right _ _))⟩

/-- The last of some tokens stands where it is laid out, at the place that it records. -/
theorem last (h : Laid source line (before ++ [t]) (offset + t.source.length)) :
    t.source <+: source.drop offset ∧ ⟨t.line, t.column⟩ = placeAt source line offset := by
  generalize same : before ++ [t] = tokens at h
  generalize there : offset + t.source.length = stop at h
  cases h with
  | nil => exact absurd same (List.append_ne_nil_of_right_ne_nil _ nofun)
  | snoc laid le gap stands place newline =>
    obtain ⟨rfl, rfl⟩ := List.append_singleton_inj.mp same
    obtain rfl := Nat.add_right_cancel there
    exact ⟨stands, place⟩

end Laid

/-- A token **stands at** an offset of a text that starts on the given line: it is one of the
tokens that the text is cut into, and is laid out there behind those before it. -/
def Token.StandsAt (source : Text) (line : Int) (t : Token) (offset : Nat) : Prop :=
  ∃ before after, tokenize source line = .ok (before ++ t :: after)
    ∧ Laid source line (before ++ [t]) (offset + t.source.length)
    ∧ offset + t.source.length ≤ source.length

/-- Every token of a text stands somewhere. -/
theorem exists_standsAt {source : Text} {line : Int} {tokens : List Token}
    (h : tokenize source line = .ok tokens) {t : Token} (ht : t ∈ tokens) :
    ∃ offset, t.StandsAt source line offset := by
  have laid := tokenize_lays_out source line
  rw [h] at laid
  obtain ⟨before, after, rfl⟩ := List.append_of_mem ht
  obtain ⟨offset, there, le⟩ := laid.1.split rfl
  exact ⟨offset, before, after, h, there, le⟩

namespace Token.StandsAt

variable {source : Text} {line : Int} {t : Token} {offset : Nat}

/-- The source of a token is what stands there. -/
theorem stands (h : t.StandsAt source line offset) : t.source <+: source.drop offset := by
  obtain ⟨_, _, _, laid, _⟩ := h
  exact laid.last.1

/-- The place that a token records is that of where it stands. -/
theorem place (h : t.StandsAt source line offset) :
    (⟨t.line, t.column⟩ : Place) = placeAt source line offset := by
  obtain ⟨_, _, _, laid, _⟩ := h
  exact laid.last.2

theorem inside (h : t.StandsAt source line offset) : offset + t.source.length ≤ source.length := by
  obtain ⟨_, _, _, _, inside⟩ := h
  exact inside

/-- A token that takes nothing of a text stands at its end. -/
theorem eq_length (h : t.StandsAt source line offset) (empty : t.source = []) :
    offset = source.length := by
  have laid := tokenize_lays_out source line
  obtain ⟨before, after, cut, _⟩ := id h
  rw [cut] at laid
  obtain ⟨whole, proper, last, same, -, text, notEmpty⟩ := laid
  rcases List.eq_nil_or_concat after with rfl | ⟨after, u, rfl⟩
  · have stops : source.length + t.source.length = source.length := by rw [empty]; rfl
    rw [← stops] at whole
    exact placeAt_inj (Nat.le_of_add_right_le h.inside) (Nat.le_refl _)
      (h.place.symm.trans whole.last.2)
  · rw [List.concat_eq_append, ← List.cons_append, ← List.append_assoc] at same
    obtain ⟨rfl, -⟩ := List.append_singleton_inj.mp same
    exact absurd empty (notEmpty t (List.mem_append_right _ List.mem_cons_self)).2

end Token.StandsAt

end Scriptlet
