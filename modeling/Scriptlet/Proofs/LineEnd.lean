import Mathlib.Data.List.Find
import Mathlib.Data.List.Forall2
import Scriptlet.Proofs.LineEnd.Feed
import Scriptlet.Proofs.Relexing
import Scriptlet.Walk.Literal

/-!
# Two ways to end a line

Files come with lines that end in a line feed, or in a carriage return and a line feed. The
walk over a text counts lines by the feeds alone and takes a return for the end of a line
as well, so it should make no difference to the tokens which of the two a file has. Here it
is said when that is so.

Between tokens it always is: a return in front of a feed is one more gap, or one more code
point of a comment, and the feed after it puts the column back to one. Words, numerals and
signs hold no feed. What is left are the tokens that may go over the end of a line. In a
string and in a regular expression a feed can only stand behind a backslash; and there a
return in front of it takes the feed's place behind the backslash, so that the feed, no
longer hidden, ends what is open. The scan is stuck on it, although the escapes of a string
know the backslash, the return and the feed as one (`readEscape`).
-/

namespace Scriptlet

/-! ## Scans -/

theorem scanSign_crlf (t : Text) : scanSign t.crlf = scanSign t := by
  have noEnd : ∀ sign ∈ signs, ('\n' : CodePoint) ∉ sign.1 ∧ ('\r' : CodePoint) ∉ sign.1 := by
    decide
  have same : signs.find? (fun sign => sign.1.isPrefixOf t.crlf)
      = signs.find? (fun sign => sign.1.isPrefixOf t) :=
    List.find?_congr fun sign hsign =>
      Text.isPrefixOf_crlf (noEnd sign hsign).1 (noEnd sign hsign).2 t
  unfold scanSign
  rw [same]

/-- A sign is none that holds a feed. -/
theorem not_mem_take_of_scanSign {t : Text} {kind : TokenKind} {n : Nat}
    (h : scanSign t = .ok (.token kind n)) : ('\n' : CodePoint) ∉ t.take n := by
  have noFeed : ∀ sign ∈ signs, ('\n' : CodePoint) ∉ sign.1 := by decide
  unfold scanSign at h
  split at h
  · rename_i sign kind' found
    cases h
    have first := List.find?_some found
    have starts := List.isPrefixOf_iff_prefix.mp first
    rw [← List.prefix_iff_eq_take.mp starts]
    exact noFeed _ (List.mem_of_find?_eq_some found)
  · cases h

/-- Whether a token of this kind **may go over the end of a line**, templates apart. -/
def TokenKind.MayContinue (kind : TokenKind) : Prop :=
  kind = .string ∨ kind = .regexp

theorem TokenKind.MayContinue.ne_endOfText {kind : TokenKind} (h : kind.MayContinue) :
    kind ≠ .endOfText := by
  rcases h with rfl | rfl <;> exact nofun

/-- What comes of a scan of a token if a return is put in front of every feed behind its first
code point: a token that holds no feed is found again; one that does is a template, or the scan
**gets stuck** on it. -/
def Keeps (again : Except LexCause Scan) (source : Text) (kind : TokenKind) (n : Nat) : Prop :=
  ('\n' : CodePoint) ∉ source ∧ again = .ok (.token kind n)
    ∨ ('\n' : CodePoint) ∈ source
      ∧ (kind = .template ∨ kind.MayContinue ∧ ∃ cause, again = .error cause)

theorem keeps_string {c : CodePoint} {rest : Text} {n : Nat} {cause : LexCause} (hc : c ≠ '\n')
    (h : (stringLength? c rest).map (· + 1) = some n) :
    Keeps (tokenOr cause .string ((stringLength? c (Text.crlf rest)).map (· + 1)))
      ((c :: rest).take n) .string n := by
  obtain ⟨m, hm, rfl⟩ := Option.map_eq_some_iff.mp h
  rw [List.take_succ_cons]
  by_cases mem : ('\n' : CodePoint) ∈ rest.take m
  · refine .inr ⟨List.mem_cons_of_mem _ mem, .inr ⟨.inl rfl, cause, ?_⟩⟩
    rw [stringLength?, measure_string_feed hc hm mem]
    rfl
  · refine .inl ⟨by rw [List.mem_cons]; exact not_or_intro (Ne.symm hc) mem, ?_⟩
    obtain ⟨read, after, rfl, closes⟩ := Enclosure.closes_of_measure hm
    rw [List.take_left' (by rw [closes.count, Nat.zero_add])] at mem
    rw [stringLength?, Text.crlf_append, Text.crlf_of_not_mem mem, closes.anywhere]
    rfl

theorem keeps_template {c : CodePoint} {rest : Text} {n : Nat} {cause : LexCause} (hc : c ≠ '\n')
    (h : (templateLength? rest).map (· + 1) = some n) :
    Keeps (tokenOr cause .template ((templateLength? (Text.crlf rest)).map (· + 1)))
      ((c :: rest).take n) .template n := by
  obtain ⟨m, hm, rfl⟩ := Option.map_eq_some_iff.mp h
  rw [List.take_succ_cons]
  by_cases mem : ('\n' : CodePoint) ∈ rest.take m
  · exact .inr ⟨List.mem_cons_of_mem _ mem, .inl rfl⟩
  · refine .inl ⟨by rw [List.mem_cons]; exact not_or_intro (Ne.symm hc) mem, ?_⟩
    obtain ⟨read, after, rfl, closes⟩ := Enclosure.closes_of_measure hm
    rw [List.take_left' (by rw [closes.count, Nat.zero_add])] at mem
    rw [templateLength?, Text.crlf_append, Text.crlf_of_not_mem mem, closes.anywhere]
    rfl

theorem keeps_regexp {c : CodePoint} {rest : Text} {n : Nat} {cause : LexCause} (hc : c ≠ '\n')
    (h : regexpLength? (c :: rest) = some n) :
    Keeps (tokenOr cause .regexp (regexpLength? (c :: Text.crlf rest))) ((c :: rest).take n)
      .regexp n := by
  obtain ⟨m, hm, rfl⟩ := Option.map_eq_some_iff.mp h
  have hm : regexpBodyLength? false 1 rest = some m := hm
  obtain ⟨body, after, rfl, count, -, again⟩ := regexpBodyLength?_reads hm
  obtain rfl : m = body.length + 1 := by omega
  have flags : Feedless (countWhile continuesName) after :=
    .countWhile (by decide +kernel) (by decide +kernel) after
  have behind : (c :: (body ++ after)).drop (body.length + 1) = after := List.drop_left
  have whole : (c :: (body ++ after)).take (body.length + 1 + countWhile continuesName after)
      = c :: body ++ after.take (countWhile continuesName after) := by
    rw [List.take_add, behind, List.take_succ_cons, List.take_left]
  rw [behind, whole, Keeps]
  by_cases mem : ('\n' : CodePoint) ∈ body
  · refine .inr ⟨List.mem_append_left _ (List.mem_cons_of_mem _ mem), .inr ⟨.inr rfl, cause, ?_⟩⟩
    have stuck := regexpBodyLength?_feed hm (by simpa using mem) 1
    rw [regexpLength?, List.drop_one, List.tail_cons, stuck]
    rfl
  · refine .inl ⟨?_, ?_⟩
    · rw [List.mem_append, List.mem_cons]
      exact not_or_intro (not_or_intro (Ne.symm hc) mem) flags.noFeed
    have left : (c :: (body ++ Text.crlf after)).drop (body.length + 1) = Text.crlf after :=
      List.drop_left
    rw [Text.crlf_append, Text.crlf_of_not_mem mem, regexpLength?, List.drop_one, List.tail_cons,
      again, Option.map_some, left, flags.same]
    rfl

/-- **A token and the feeds.** -/
theorem scanToken_crlf {allowed : Bool} {c : CodePoint} {rest : Text} {kind : TokenKind} {n : Nat}
    (hc : c ≠ '\n') (h : scanToken allowed c rest = .ok (.token kind n)) :
    Keeps (scanToken allowed c (Text.crlf rest)) ((c :: rest).take n) kind n := by
  have le := (scanToken_recurs h).2.1
  have front : Text.crlf (c :: rest) = c :: Text.crlf rest := Text.crlf_cons hc rest
  unfold scanToken at h ⊢
  dsimp only at h ⊢
  rw [Text.headIs_crlf (by decide)]
  by_cases quote : (c == doubleQuote || c == singleQuote) = true
  · rw [if_pos quote] at h ⊢
    obtain ⟨rfl, length⟩ := tokenOr_eq_ok h
    exact keeps_string hc length
  rw [if_neg quote] at h ⊢
  by_cases tick : (c == backtick) = true
  · rw [if_pos tick] at h ⊢
    obtain ⟨rfl, length⟩ := tokenOr_eq_ok h
    exact keeps_template hc length
  rw [if_neg tick] at h ⊢
  by_cases number : (Text.isDigit c || (c == '.' && headIs Text.isDigit rest)) = true
  · rw [if_pos number] at h ⊢
    obtain ⟨rfl, length⟩ := tokenOr_eq_ok h
    obtain ⟨same, noFeed⟩ := numberLength?_crlf le length
    exact .inl ⟨noFeed, by rw [← front, same]; rfl⟩
  rw [if_neg number] at h ⊢
  by_cases name : startsName c = true
  · rw [if_pos name] at h ⊢
    have word := Feedless.countWhile (p := continuesName) (by decide +kernel) (by decide +kernel)
      (c :: rest)
    obtain ⟨rfl, rfl⟩ := Scan.token.inj (Except.ok.inj h)
    refine .inl ⟨word.noFeed, ?_⟩
    rw [← front, Text.takeWhile_crlf (by decide +kernel) (by decide +kernel)]
  rw [if_neg name] at h ⊢
  by_cases slash : (c == '/' && allowed) = true
  · rw [if_pos slash] at h ⊢
    obtain ⟨rfl, length⟩ := tokenOr_eq_ok h
    exact keeps_regexp hc length
  rw [if_neg slash] at h ⊢
  exact .inl ⟨not_mem_take_of_scanSign h, by rw [← front, scanSign_crlf, h]⟩

/-- **A scanned token and the feeds.** -/
theorem scan_crlf {allowed : Bool} {c : CodePoint} {rest : Text} {kind : TokenKind} {n : Nat}
    (h : scan allowed c rest = .ok (.token kind n)) :
    c ≠ '\n' ∧ Keeps (scan allowed c (Text.crlf rest)) ((c :: rest).take n) kind n := by
  have noGap := startsGap_eq_false_of_scan h
  have hc : c ≠ '\n' := by rintro rfl; cases noGap
  have noGap' : startsGap c (Text.crlf rest) = false := by
    unfold startsGap at noGap ⊢
    rw [Text.headIs_crlf rfl, Text.headIs_crlf rfl, noGap]
  rw [scan_of_startsGap_eq_false noGap] at h
  rw [scan_of_startsGap_eq_false noGap']
  exact ⟨hc, scanToken_crlf hc h⟩

/-! ## Gaps -/

namespace LexState

/-- A return moves the place one column on, and the feed behind it starts the next line all
the same. -/
theorem pass_crlf (s : LexState) (t : Text) : s.pass t.crlf = s.pass t := by
  induction t generalizing s with
  | nil => rfl
  | cons c rest ih =>
    by_cases hc : c = '\n'
    · subst hc
      exact ih _
    · rw [Text.crlf_cons hc]
      exact ih _

end LexState

theorem any_isLineEnd_crlf (t : Text) : (Text.crlf t).any isLineEnd = t.any isLineEnd := by
  induction t with
  | nil => rfl
  | cons c rest ih =>
    by_cases hc : c = '\n'
    · subst hc; rfl
    · rw [Text.crlf_cons hc, List.any_cons, List.any_cons, ih]

/-- A gap comes to the same, with returns in front of its feeds. -/
theorem LexState.take_gap_crlf (s : LexState) (gap : Text) :
    s.take (.gap gap.crlf) = s.take (.gap gap) := by
  show (s.noteGap gap.crlf).pass gap.crlf = (s.noteGap gap).pass gap
  rw [pass_crlf, noteGap, any_isLineEnd_crlf]
  rfl

/-- The mark that closes a comment is found behind as much, returns included. -/
theorem findFrom_crlf {needle : Text} (notEmpty : needle ≠ [])
    (feed : ('\n' : CodePoint) ∉ needle) (ret : ('\r' : CodePoint) ∉ needle) {base k : Nat}
    {t : Text} (h : Text.findFrom needle base t = some (base + k)) (base' : Nat) :
    Text.findFrom needle base' t.crlf = some (base' + (Text.crlf (t.take k)).length) := by
  induction t generalizing base base' k with
  | nil =>
    cases needle with
    | nil => exact absurd rfl notEmpty
    | cons d needle => cases h
  | cons c rest ih =>
    rw [Text.findFrom] at h
    have here := Text.isPrefixOf_crlf feed ret (c :: rest)
    split at h
    · rename_i starts
      obtain rfl : k = 0 := by have := Option.some.inj h; omega
      rw [starts] at here
      cases hall : Text.crlf (c :: rest) with
      | nil => rw [hall] at here; cases needle with
        | nil => exact absurd rfl notEmpty
        | cons d needle => cases here
      | cons d more =>
        rw [Text.findFrom, ← hall, if_pos here]
        rfl
    · rename_i notHere
      obtain ⟨j, rfl⟩ : ∃ j, k = j + 1 := by
        obtain ⟨j, hj, -, -⟩ := Text.findFrom_eq_some h
        exact ⟨j, by omega⟩
      have next : Text.findFrom needle (base + 1) rest = some (base + 1 + j) := by
        rw [h]; congr 1; omega
      have more := ih next
      rw [List.take_succ_cons]
      by_cases hc : c = '\n'
      · subst hc
        have noReturn (t : Text) : ¬ needle.isPrefixOf (('\r' : CodePoint) :: t) = true := by
          cases needle with
          | nil => exact absurd rfl notEmpty
          | cons d needle =>
            rw [List.isPrefixOf, beq_false_of_ne (Ne.symm (List.ne_of_not_mem_cons ret))]
            exact nofun
        have noFeed (t : Text) : ¬ needle.isPrefixOf (('\n' : CodePoint) :: t) = true := by
          cases needle with
          | nil => exact absurd rfl notEmpty
          | cons d needle =>
            rw [List.isPrefixOf, beq_false_of_ne (Ne.symm (List.ne_of_not_mem_cons feed))]
            exact nofun
        rw [Text.crlf_feed, Text.findFrom, if_neg (noReturn _), Text.findFrom, if_neg (noFeed _),
          more, Text.crlf_feed, List.length_cons, List.length_cons]
        congr 1
        omega
      · rw [Text.crlf_cons hc] at here ⊢
        rw [Text.findFrom, here, if_neg notHere, more, Text.crlf_cons hc, List.length_cons]
        congr 1
        omega

/-- A gap that starts with no feed is **found again as a whole**, with returns in front of its
feeds. -/
theorem scan_gap_crlf {allowed : Bool} {c : CodePoint} {rest : Text} {n : Nat} (hc : c ≠ '\n')
    (h : scan allowed c rest = .ok (.gap n)) :
    scan allowed c (Text.crlf rest) = .ok (.gap (Text.crlf ((c :: rest).take n)).length) := by
  have tooLong := (scan_isGap h).2.1
  unfold scan at h ⊢
  dsimp only at h ⊢
  rw [Text.headIs_crlf rfl, Text.headIs_crlf rfl]
  by_cases blank : (isLineEnd c || isSpace c) = true
  · rw [if_pos blank] at h ⊢
    cases h
    rw [List.take_succ_cons, List.take_zero, Text.crlf_cons hc]
    rfl
  rw [if_neg blank] at h ⊢
  by_cases line : (c == '/' && headIs (· == '/') rest) = true
  · rw [if_pos line] at h ⊢
    cases h
    have count := Feedless.countWhile (p := fun c => !isLineEnd c) rfl rfl (c :: rest)
    rw [← Text.crlf_cons hc, count.same, Text.crlf_of_not_mem count.noFeed,
      List.length_take_of_le count.le]
  rw [if_neg line] at h ⊢
  by_cases block : (c == '/' && headIs (· == '*') rest) = true
  · rw [if_pos block] at h ⊢
    obtain ⟨-, star⟩ := Bool.and_eq_true_iff.mp block
    cases rest with
    | nil => cases star
    | cons d rest =>
      obtain rfl := beq_iff_eq.mp (show (d == ('*' : CodePoint)) = true from star)
      rw [Text.crlf_cons (by decide)]
      rw [List.drop_one, List.tail_cons] at h ⊢
      split at h
      · rename_i k found
        cases h
        have first : Text.findFrom "*/" 0 rest = some (0 + k) := by rw [Nat.zero_add]; exact found
        have again := findFrom_crlf (by decide) (by decide) (by decide) first 0
        obtain ⟨_, hk, ⟨after, there⟩, -⟩ := Text.findFrom_eq_some found
        rw [Nat.zero_add] at hk again
        subst hk
        have taken : rest.take (k + 2) = rest.take k ++ "*/" := by
          rw [List.take_add, ← there]
          rfl
        rw [Text.find?, again, List.take_succ_cons, List.take_succ_cons, taken, Text.crlf_cons hc,
          Text.crlf_cons (by decide), Text.crlf_append, List.length_cons, List.length_cons,
          List.length_append]
        rfl
      · cases h
  · rw [if_neg block] at h
    exact absurd h (scanToken_ne_gap allowed c rest n)

/-- What a scan of a gap passes over is **cut into gaps** that come to the same. -/
theorem Cuts.gap_crlf {allowed after : Bool} {c : CodePoint} {rest remainder : Text} {n : Nat}
    {pieces : List SourcePiece} (h : scan allowed c rest = .ok (.gap n))
    (more : Cuts allowed (Text.crlf ((c :: rest).drop n)) pieces after remainder) :
    ∃ gaps, Cuts allowed (Text.crlf (c :: rest)) (gaps ++ pieces) after remainder
      ∧ ∀ s : LexState, gaps.foldl LexState.take s = s.take (.gap ((c :: rest).take n)) := by
  by_cases hc : c = '\n'
  · -- The return is a gap of its own.
    subst hc
    obtain rfl : n = 1 := by cases h; rfl
    have feed : Cuts allowed (('\n' : CodePoint) :: Text.crlf rest)
        (.gap [('\n' : CodePoint)] :: pieces) after remainder :=
      .gap (n := 1) rfl more
    refine ⟨[.gap [('\r' : CodePoint)], .gap [('\n' : CodePoint)]], .gap (n := 1) rfl feed, ?_⟩
    intro s
    show (((s.noteGap [('\r' : CodePoint)]).advance '\r').noteGap [('\n' : CodePoint)]).advance '\n'
      = (s.noteGap [('\n' : CodePoint)]).advance '\n'
    cases hs : s.newline <;> (unfold LexState.noteGap; rw [hs]; rfl)
  · have again := scan_gap_crlf hc h
    have split : c :: Text.crlf rest
        = Text.crlf ((c :: rest).take n) ++ Text.crlf ((c :: rest).drop n) := by
      rw [← Text.crlf_append, List.take_append_drop, Text.crlf_cons hc]
    have cut := Cuts.gap again (by rw [split, List.drop_left]; exact more)
    rw [split, List.take_left, ← split] at cut
    rw [Text.crlf_cons hc]
    exact ⟨[.gap (Text.crlf ((c :: rest).take n))], cut, fun s => s.take_gap_crlf _⟩

/-! ## The tokens of the two texts -/

/-- A token whose source **has a feed** in it. -/
def SourcePiece.HasFeed (kind : TokenKind) (source : Text) (pieces : List SourcePiece) : Prop :=
  .token kind source ∈ pieces ∧ ('\n' : CodePoint) ∈ source

/-- **Both texts are cut alike** as long as no token has a feed in it: with returns in front of
the feeds, the pieces take the walk to the same state. -/
theorem Cuts.crlf {allowed after : Bool} {t remainder : Text} {pieces : List SourcePiece}
    (cuts : Cuts allowed t pieces after remainder)
    (plain : ∀ kind source, ¬ SourcePiece.HasFeed kind source pieces) :
    ∃ pieces', Cuts allowed t.crlf pieces' after remainder.crlf
      ∧ ∀ s : LexState, pieces'.foldl LexState.take s = pieces.foldl LexState.take s := by
  induction cuts with
  | done => exact ⟨[], .done _ _, fun _ => rfl⟩
  | gap found _ ih =>
    obtain ⟨pieces', cuts', same⟩ := ih fun kind source h =>
      plain kind source ⟨List.mem_cons_of_mem _ h.1, h.2⟩
    obtain ⟨gaps, cuts', gapSame⟩ := Cuts.gap_crlf found cuts'
    refine ⟨gaps ++ pieces', cuts', fun s => ?_⟩
    rw [List.foldl_append, List.foldl_cons, gapSame, same]
  | @token _ _ c rest _ kind n _ found _ ih =>
    obtain ⟨pieces', cuts', same⟩ := ih fun kind source h =>
      plain kind source ⟨List.mem_cons_of_mem _ h.1, h.2⟩
    obtain ⟨hc, ⟨noFeed, again⟩ | ⟨feed, -⟩⟩ := scan_crlf found
    · have le := (scan_recurs found).2.1
      rw [← Text.drop_crlf le noFeed, Text.crlf_cons hc] at cuts'
      have cut := Cuts.token again cuts'
      have source : (c :: Text.crlf rest).take n = (c :: rest).take n := by
        rw [← Text.crlf_cons hc, Text.take_crlf le noFeed]
      rw [source] at cut
      refine ⟨_, by rw [Text.crlf_cons hc]; exact cut, fun s => ?_⟩
      rw [List.foldl_cons, List.foldl_cons, same]
    · exact absurd ⟨List.mem_cons_self, feed⟩ (plain kind _)

/-- **The walk gets stuck** on the first token that has a feed in it, if none that has one is a
template. -/
theorem Cuts.crlf_stuck {allowed after : Bool} {t remainder : Text} {pieces : List SourcePiece}
    (cuts : Cuts allowed t pieces after remainder)
    (templates : ∀ source, ¬ SourcePiece.HasFeed .template source pieces)
    {kind : TokenKind} {source : Text} (feed : SourcePiece.HasFeed kind source pieces) :
    ∃ pieces' after' remainder' cause, Cuts allowed t.crlf pieces' after' remainder'
      ∧ IsStuck after' remainder' cause := by
  induction cuts with
  | done => exact absurd feed.1 List.not_mem_nil
  | gap found _ ih =>
    obtain ⟨pieces', after', remainder', cause, cuts', stuck⟩ := ih
      (fun source h => templates source ⟨List.mem_cons_of_mem _ h.1, h.2⟩)
      ⟨(List.mem_cons.mp feed.1).resolve_left nofun, feed.2⟩
    obtain ⟨gaps, cuts', -⟩ := Cuts.gap_crlf found cuts'
    exact ⟨_, after', remainder', cause, cuts', stuck⟩
  | @token allowed _ c rest _ kind' n _ found _ ih =>
    obtain ⟨hc, ⟨noFeed, again⟩ | ⟨here, template | ⟨-, cause, stuck⟩⟩⟩ := scan_crlf found
    · -- This token is found again, so the one that has a feed comes later.
      have later := List.mem_of_ne_of_mem (by rintro ⟨rfl, rfl⟩; exact noFeed feed.2) feed.1
      obtain ⟨pieces', after', remainder', cause, cuts', stuck⟩ := ih
        (fun source h => templates source ⟨List.mem_cons_of_mem _ h.1, h.2⟩) ⟨later, feed.2⟩
      rw [← Text.drop_crlf (scan_recurs found).2.1 noFeed, Text.crlf_cons hc] at cuts'
      exact ⟨_, after', remainder', cause, by rw [Text.crlf_cons hc]; exact .token again cuts',
        stuck⟩
    · subst template
      exact absurd ⟨List.mem_cons_self, here⟩ (templates _)
    · exact ⟨[], allowed, _, cause, .done _ _, c, Text.crlf rest, Text.crlf_cons hc rest, stuck⟩

/-! ### From pieces to tokens -/

/-- Templates, strings and regular expressions are all that a feed can stand in. -/
theorem Cuts.kind_of_hasFeed {allowed after : Bool} {t remainder source : Text}
    {pieces : List SourcePiece} {kind : TokenKind} (cuts : Cuts allowed t pieces after remainder)
    (feed : SourcePiece.HasFeed kind source pieces) : kind = .template ∨ kind.MayContinue := by
  induction cuts with
  | done => exact absurd feed.1 List.not_mem_nil
  | gap _ _ ih => exact ih ⟨(List.mem_cons.mp feed.1).resolve_left nofun, feed.2⟩
  | token found _ ih =>
    rcases List.mem_cons.mp feed.1 with same | later
    · cases same
      rcases (scan_crlf found).2 with ⟨noFeed, -⟩ | ⟨-, template | ⟨mayContinue, -⟩⟩
      · exact absurd feed.2 noFeed
      · exact .inl template
      · exact .inr mayContinue
    · exact ih ⟨later, feed.2⟩

/-- The tokens of a kind **keep** the feeds of their sources. -/
theorem Cuts.mem_contents {allowed after : Bool} {t remainder : Text} {pieces : List SourcePiece}
    (cuts : Cuts allowed t pieces after remainder) (newline : Bool) {kind : TokenKind}
    (notEnd : kind ≠ .endOfText) :
    (∃ text newline', (kind, text, newline') ∈ contents newline pieces ∧ ('\n' : CodePoint) ∈ text)
      ↔ ∃ source, SourcePiece.HasFeed kind source pieces := by
  induction cuts generalizing newline with
  | done =>
    constructor
    · rintro ⟨text, newline', mem, -⟩
      cases List.mem_singleton.mp mem
      exact absurd rfl notEnd
    · rintro ⟨source, mem, -⟩
      cases mem
  | gap found _ ih =>
    refine (ih _).trans ⟨fun ⟨source, mem, feed⟩ => ⟨source, List.mem_cons_of_mem _ mem, feed⟩, ?_⟩
    rintro ⟨source, mem, feed⟩
    exact ⟨source, (List.mem_cons.mp mem).resolve_left nofun, feed⟩
  | @token _ _ c rest _ kind' n pieces found _ ih =>
    -- A backtick, which is all that a token leaves out of its source, is no feed.
    have kept : ('\n' : CodePoint) ∈ keptText kind' ((c :: rest).take n)
        ↔ ('\n' : CodePoint) ∈ (c :: rest).take n := by
      conv => rhs; rw [← scan_keeps found 0 0 false]
      unfold Token.source
      split
      · rw [List.mem_append, List.mem_cons, List.mem_singleton]
        exact ⟨fun h => .inl (.inr h),
          fun h => (h.resolve_right (by decide)).resolve_left (by decide)⟩
      · exact Iff.rfl
    constructor
    · rintro ⟨text, newline', mem, feed⟩
      rcases List.mem_cons.mp mem with same | mem
      · obtain ⟨rfl, rfl, -⟩ := Prod.mk.inj same |>.imp_right Prod.mk.inj
        exact ⟨_, List.mem_cons_self, kept.mp feed⟩
      · obtain ⟨source, mem, feed⟩ := (ih false).mp ⟨text, newline', mem, feed⟩
        exact ⟨source, List.mem_cons_of_mem _ mem, feed⟩
    · rintro ⟨source, mem, feed⟩
      rcases List.mem_cons.mp mem with same | mem
      · cases same
        exact ⟨_, newline, List.mem_cons_self, kept.mpr feed⟩
      · obtain ⟨text, newline', mem, feed⟩ := (ih false).mpr ⟨source, mem, feed⟩
        exact ⟨text, newline', List.mem_cons_of_mem _ mem, feed⟩

/-- Two tokens **agree**: they are of one kind, at one place, both or neither behind the end of a
line, and have the same text, or stand for the same text if they are strings. -/
structure Token.Agrees (t u : Token) : Prop where
  kind : t.kind = u.kind
  line : t.line = u.line
  column : t.column = u.column
  newlineBefore : t.newlineBefore = u.newlineBefore
  text : t.kind ≠ .string → t.text = u.text
  value : t.kind = .string → Walk.stringValue t.text = Walk.stringValue u.text

theorem Token.Agrees.refl (t : Token) : t.Agrees t :=
  ⟨rfl, rfl, rfl, rfl, fun _ => rfl, fun _ => rfl⟩

/-- **Returns in front of the feeds change nothing** about the tokens of a text without
templates over several lines, as long as no string and no regular expression goes over the end
of a line either: the tokens are the very same then. Where one does, the text with the returns
cannot be cut into tokens at all. -/
theorem tokenize_crlf {source : Text} {line : Int} {tokens : List Token}
    (h : tokenize source line = .ok tokens)
    (templates : ∀ t ∈ tokens, t.kind = .template → ('\n' : CodePoint) ∉ t.text) :
    ((∃ tokens', tokenize source.crlf line = .ok tokens' ∧ List.Forall₂ Token.Agrees tokens tokens')
        ↔ ∀ t ∈ tokens, t.kind.MayContinue → ('\n' : CodePoint) ∉ t.text)
      ∧ ((∀ t ∈ tokens, t.kind.MayContinue → ('\n' : CodePoint) ∉ t.text)
        → tokenize source.crlf line = .ok tokens) := by
  rcases tokenize_cases source line with
    ⟨pieces, after, cuts, same⟩ | ⟨pieces, after, remainder, cause, cuts, stuck, same⟩
  case inr => cases h.symm.trans same
  obtain ⟨tokens₁, same₁, said⟩ := cuts.tokenize_contents line
  obtain rfl := Except.ok.inj (h.symm.trans same₁)
  have feeds {kind : TokenKind} (notEnd : kind ≠ .endOfText) :
      (∃ t ∈ tokens, t.kind = kind ∧ ('\n' : CodePoint) ∈ t.text)
        ↔ ∃ source, SourcePiece.HasFeed kind source pieces := by
    rw [← cuts.mem_contents false notEnd, ← said]
    constructor
    · rintro ⟨t, mem, rfl, feed⟩
      exact ⟨t.text, t.newlineBefore, List.mem_map_of_mem mem, feed⟩
    · rintro ⟨text, newline, mem, feed⟩
      obtain ⟨t, listed, content⟩ := List.mem_map.mp mem
      obtain ⟨rfl, rfl, -⟩ := Prod.mk.inj content |>.imp_right Prod.mk.inj
      exact ⟨t, listed, rfl, feed⟩
  have noTemplate (text : Text) : ¬ SourcePiece.HasFeed .template text pieces := fun found => by
    obtain ⟨t, mem, kind, feed⟩ := (feeds (by decide)).mpr ⟨text, found⟩
    exact templates t mem kind feed
  have alike (plain : ∀ t ∈ tokens, t.kind.MayContinue → ('\n' : CodePoint) ∉ t.text) :
      tokenize source.crlf line = .ok tokens := by
    obtain ⟨pieces', cuts', same'⟩ := cuts.crlf fun kind text found => by
      rcases cuts.kind_of_hasFeed found with rfl | mayContinue
      · exact noTemplate text found
      · obtain ⟨t, mem, rfl, feed⟩ := (feeds mayContinue.ne_endOfText).mpr ⟨text, found⟩
        exact plain t mem mayContinue feed
    rw [cuts'.tokenize_eq_ok line, same', ← cuts.tokenize_eq_ok line]
    exact h
  refine ⟨⟨?_, fun plain => ⟨tokens, alike plain, List.forall₂_same.mpr fun t _ => .refl t⟩⟩, alike⟩
  rintro ⟨tokens', again, -⟩ t mem mayContinue feed
  obtain ⟨text, found⟩ := (feeds mayContinue.ne_endOfText).mp ⟨t, mem, rfl, feed⟩
  obtain ⟨pieces', after', remainder', cause, cuts', stuck⟩ := cuts.crlf_stuck noTemplate found
  cases again.symm.trans (cuts'.tokenize_eq_error stuck line)

/-- A text with a comment and a string, each on a line of its own. -/
theorem tokenize_crlf_of_comment :
    ∃ tokens, tokenize "a /*\n*/\n'b'" 1 = .ok tokens
      ∧ (∀ t ∈ tokens, t.kind = .template → ('\n' : CodePoint) ∉ t.text)
      ∧ (∀ t ∈ tokens, t.kind.MayContinue → ('\n' : CodePoint) ∉ t.text)
      ∧ Text.crlf "a /*\n*/\n'b'" = "a /*\r\n*/\r\n'b'"
      ∧ tokenize "a /*\r\n*/\r\n'b'" 1 = .ok tokens := by
  obtain ⟨tokens, cut, plain⟩ : ∃ tokens, tokenize "a /*\n*/\n'b'" 1 = .ok tokens
      ∧ ∀ t ∈ tokens, ('\n' : CodePoint) ∉ t.text := by
    have cut : (tokenize "a /*\n*/\n'b'" 1).toOption = some
        [⟨.identifier, "a", 1, 1, false⟩, ⟨.string, "'b'", 3, 1, true⟩,
          ⟨.endOfText, [], 3, 4, false⟩] := by decide +kernel
    exact ⟨_, Except.eq_ok_of_toOption cut, by decide⟩
  have templates : ∀ t ∈ tokens, t.kind = .template → ('\n' : CodePoint) ∉ t.text :=
    fun t mem _ => plain t mem
  have mayContinue : ∀ t ∈ tokens, t.kind.MayContinue → ('\n' : CodePoint) ∉ t.text :=
    fun t mem _ => plain t mem
  exact ⟨tokens, cut, templates, mayContinue, by decide,
    (tokenize_crlf cut templates).2 mayContinue⟩

/-- **Where a line goes on behind a backslash**, returns make a difference: the string is none any
more, although its escapes join the two lines either way. -/
theorem not_agrees_of_continued_line :
    ∃ tokens, tokenize "'a\\\nb'" 1 = .ok tokens
      ∧ (∀ t ∈ tokens, t.kind ≠ .template)
      ∧ ('\r' : CodePoint) ∉ Text.ofString "'a\\\nb'"
      ∧ Text.crlf "'a\\\nb'" = "'a\\\r\nb'"
      ∧ unescape "a\\\nb" = "ab" ∧ unescape "a\\\r\nb" = "ab"
      ∧ ¬ ∃ tokens', tokenize "'a\\\r\nb'" 1 = .ok tokens'
        ∧ List.Forall₂ Token.Agrees tokens tokens' := by
  have cut : (tokenize "'a\\\nb'" 1).toOption = some
      [⟨.string, "'a\\\nb'", 1, 1, false⟩, ⟨.endOfText, [], 2, 3, false⟩] := by decide +kernel
  have stuck : (tokenize "'a\\\r\nb'" 1).toOption = none := by decide +kernel
  refine ⟨_, Except.eq_ok_of_toOption cut, by decide, by decide, by decide, by decide, by decide,
    ?_⟩
  rintro ⟨tokens', again, -⟩
  rw [again] at stuck
  cases stuck

end Scriptlet
