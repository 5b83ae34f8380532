import Scriptlet.Proofs.Scanning
import Scriptlet.Proofs.Spelling

/-!
# The pieces that a text is cut into

The walk over a text keeps a counter of the code points that belong to what has been
scanned last, and a state that it changes at every one of them. Seen from outside it goes
in larger steps: a scan finds a piece, and the walk passes over the whole of it. Here the
walk is taken apart into these steps. A text *is cut* into pieces, each found by a scan
where the last one ends, and what remains is nothing, or something on which the scan
fails. This is all there is to `tokenize` (`tokenize_cases`), and what is said about it
elsewhere is said by induction on the pieces.
-/

namespace Scriptlet

/-- A **piece** of a text, with its source. -/
inductive SourcePiece where
  /-- What lies between tokens. -/
  | gap (source : Text)
  /-- A token. -/
  | token (kind : TokenKind) (source : Text)

/-- **The text is cut** into pieces, up to what remains. The first truth value tells
whether a slash opens a regular expression at the start, the second whether it does so at
what remains. -/
inductive Cuts : Bool → Text → List SourcePiece → Bool → Text → Prop
  | done (allowed : Bool) (remainder : Text) : Cuts allowed remainder [] allowed remainder
  | gap {allowed after : Bool} {c : CodePoint} {rest remainder : Text} {n : Nat}
    {pieces : List SourcePiece} (found : scan allowed c rest = .ok (.gap n))
    (more : Cuts allowed ((c :: rest).drop n) pieces after remainder) :
    Cuts allowed (c :: rest) (.gap ((c :: rest).take n) :: pieces) after remainder
  | token {allowed after : Bool} {c : CodePoint} {rest remainder : Text} {kind : TokenKind}
    {n : Nat} {pieces : List SourcePiece} (found : scan allowed c rest = .ok (.token kind n))
    (more : Cuts (!kind.endsValue) ((c :: rest).drop n) pieces after remainder) :
    Cuts allowed (c :: rest) (.token kind ((c :: rest).take n) :: pieces) after remainder

/-- A scan **is stuck** on a text, for a cause. -/
def IsStuck (allowed : Bool) (t : Text) (cause : LexCause) : Prop :=
  ∃ c rest, t = c :: rest ∧ scan allowed c rest = .error cause

/-- Every text is cut up to its end, or to where the scan is stuck. -/
theorem exists_cuts (allowed : Bool) (t : Text) :
    ∃ pieces after remainder, Cuts allowed t pieces after remainder
      ∧ (remainder = [] ∨ ∃ cause, IsStuck after remainder cause) := by
  -- A piece is never empty, so what follows it is shorter.
  induction hlength : t.length using Nat.strongRecOn generalizing allowed t with
  | ind length ih =>
    cases t with
    | nil => exact ⟨[], allowed, [], .done allowed [], .inl rfl⟩
    | cons c rest =>
      have shorter {n : Nat} (pos : 0 < n) : ((c :: rest).drop n).length < length := by
        rw [← hlength, List.length_drop, List.length_cons]
        omega
      cases found : scan allowed c rest with
      | error cause =>
        exact ⟨[], allowed, c :: rest, .done allowed _, .inr ⟨cause, c, rest, rfl, found⟩⟩
      | ok scanned =>
        cases scanned with
        | gap n =>
          have := shorter (scan_isGap found).1
          obtain ⟨pieces, after, remainder, cuts, ends⟩ := ih _ this allowed _ rfl
          exact ⟨_, after, remainder, .gap found cuts, ends⟩
        | token kind n =>
          have := shorter (scan_recurs found).1
          obtain ⟨pieces, after, remainder, cuts, ends⟩ := ih _ this (!kind.endsValue) _ rfl
          exact ⟨_, after, remainder, .token found cuts, ends⟩

/-! ## The walk, piece by piece -/

namespace LexState

/-- Moves the place past a text. -/
def pass (s : LexState) (t : Text) : LexState :=
  t.foldl advance s

@[simp] theorem tokens_pass (s : LexState) (t : Text) : (s.pass t).tokens = s.tokens := by
  induction t generalizing s with
  | nil => rfl
  | cons c rest ih =>
    show ((s.advance c).pass rest).tokens = s.tokens
    rw [ih, tokens_advance]

@[simp] theorem newline_pass (s : LexState) (t : Text) : (s.pass t).newline = s.newline := by
  induction t generalizing s with
  | nil => rfl
  | cons c rest ih =>
    show ((s.advance c).pass rest).newline = s.newline
    rw [ih]
    unfold advance
    split <;> rfl

/-- Takes a piece: notes or emits what it is, and moves past it. -/
def take (s : LexState) : SourcePiece → LexState
  | .gap source => (s.noteGap source).pass source
  | .token kind source => (s.emit kind (keptText kind source)).pass source

theorem regexpAllowed_take_gap (s : LexState) (source : Text) :
    (s.take (.gap source)).regexpAllowed = s.regexpAllowed := by
  unfold regexpAllowed take
  rw [tokens_pass]
  rfl

theorem regexpAllowed_take_token (s : LexState) (kind : TokenKind) (source : Text) :
    (s.take (.token kind source)).regexpAllowed = !kind.endsValue := by
  unfold regexpAllowed take
  rw [tokens_pass]
  rfl

end LexState

/-- The walk passes over what belongs to what has been scanned last. -/
theorem lexFrom_pass {s : LexState} {inside : Nat} {t : Text} (h : inside ≤ t.length) :
    lexFrom s inside t = lexFrom (s.pass (t.take inside)) 0 (t.drop inside) := by
  induction inside generalizing s t with
  | zero => rfl
  | succ inside ih =>
    cases t with
    | nil => cases h
    | cons c rest =>
      rw [lexFrom, ih (Nat.le_of_succ_le_succ h)]
      rfl

/-- The walk takes the piece that a scan of a gap finds. -/
theorem lexFrom_gap {s : LexState} {c : CodePoint} {rest : Text} {n : Nat}
    (found : scan s.regexpAllowed c rest = .ok (.gap n)) :
    lexFrom s 0 (c :: rest)
      = lexFrom (s.take (.gap ((c :: rest).take n))) 0 ((c :: rest).drop n) := by
  obtain ⟨pos, le, -⟩ := scan_isGap found
  obtain ⟨n, rfl⟩ : ∃ k, n = k + 1 := ⟨n - 1, by omega⟩
  rw [lexFrom, found]
  dsimp only
  rw [Nat.add_sub_cancel, lexFrom_pass (Nat.le_of_succ_le_succ le)]
  rfl

/-- The walk takes the piece that a scan of a token finds. -/
theorem lexFrom_token {s : LexState} {c : CodePoint} {rest : Text} {kind : TokenKind} {n : Nat}
    (found : scan s.regexpAllowed c rest = .ok (.token kind n)) :
    lexFrom s 0 (c :: rest)
      = lexFrom (s.take (.token kind ((c :: rest).take n))) 0 ((c :: rest).drop n) := by
  obtain ⟨pos, le, -⟩ := scan_recurs found
  obtain ⟨n, rfl⟩ : ∃ k, n = k + 1 := ⟨n - 1, by omega⟩
  rw [lexFrom, found]
  dsimp only
  rw [Nat.add_sub_cancel, lexFrom_pass (Nat.le_of_succ_le_succ le)]
  rfl

/-- **The walk takes the pieces** that the text is cut into, one after the other, and goes on
with what remains. -/
theorem Cuts.lexFrom_eq {allowed after : Bool} {t remainder : Text} {pieces : List SourcePiece}
    (cuts : Cuts allowed t pieces after remainder) {s : LexState}
    (hs : s.regexpAllowed = allowed) :
    lexFrom s 0 t = lexFrom (pieces.foldl LexState.take s) 0 remainder
      ∧ (pieces.foldl LexState.take s).regexpAllowed = after := by
  induction cuts generalizing s with
  | done => exact ⟨rfl, hs⟩
  | gap found _ ih =>
    subst hs
    rw [lexFrom_gap found]
    exact ih (s.regexpAllowed_take_gap _)
  | token found _ ih =>
    subst hs
    rw [lexFrom_token found]
    exact ih (s.regexpAllowed_take_token _ _)

/-- The state in which the walk starts. -/
def LexState.start (line : Int) : LexState :=
  ⟨line, 1, false, []⟩

/-- A text that is cut up to its end **has the tokens** of the pieces. -/
theorem Cuts.tokenize_eq_ok {after : Bool} {source : Text} {pieces : List SourcePiece}
    (cuts : Cuts true source pieces after []) (line : Int) :
    tokenize source line
      = .ok ((pieces.foldl LexState.take (.start line)).emit .endOfText []).tokens.reverse := by
  have walk := (cuts.lexFrom_eq (s := .start line) rfl).1
  unfold tokenize
  rw [show (⟨line, 1, false, []⟩ : LexState) = .start line from rfl, walk, lexFrom]
  rfl

/-- A text that is cut up to where the scan is stuck **fails** there, for the same cause. -/
theorem Cuts.tokenize_eq_error {after : Bool} {source remainder : Text} {pieces : List SourcePiece}
    {cause : LexCause} (cuts : Cuts true source pieces after remainder)
    (stuck : IsStuck after remainder cause) (line : Int) :
    tokenize source line
      = .error ⟨cause, some (pieces.foldl LexState.take (.start line)).place⟩ := by
  obtain ⟨c, rest, rfl, failed⟩ := stuck
  obtain ⟨walk, allowed⟩ := cuts.lexFrom_eq (s := .start line) rfl
  rw [← allowed] at failed
  unfold tokenize
  rw [show (⟨line, 1, false, []⟩ : LexState) = .start line from rfl, walk, lexFrom, failed]
  rfl

/-- **What `tokenize` answers** is decided by the pieces: all of the text is cut, or the scan
is stuck on what remains. -/
theorem tokenize_cases (source : Text) (line : Int) :
    (∃ pieces after, Cuts true source pieces after []
      ∧ tokenize source line
        = .ok ((pieces.foldl LexState.take (.start line)).emit .endOfText []).tokens.reverse)
    ∨ ∃ pieces after remainder cause, Cuts true source pieces after remainder
      ∧ IsStuck after remainder cause
      ∧ tokenize source line
        = .error ⟨cause, some (pieces.foldl LexState.take (.start line)).place⟩ := by
  obtain ⟨pieces, after, remainder, cuts, rfl | ⟨cause, stuck⟩⟩ := exists_cuts true source
  · exact .inl ⟨pieces, after, cuts, cuts.tokenize_eq_ok line⟩
  · exact .inr ⟨pieces, after, remainder, cause, cuts, stuck, cuts.tokenize_eq_error stuck line⟩

end Scriptlet
