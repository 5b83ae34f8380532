import Mathlib.Data.List.TakeWhile
import Scriptlet.Proofs.Depth
import Scriptlet.Proofs.Origin
import Scriptlet.Report

/-!
# Where the caret points

A report shows the line that its number stands for and a caret below its column. The number and
the column come from the walk that cuts the source into tokens, which starts a line behind a
line feed and behind the two Unicode separators. The line that is shown comes from splitting the
source at each of its boundaries, and of these there are more. The two agree where the source
breaks *alike* for both, that is where its boundaries are those that start lines and carriage
returns in front of a line feed. Up to there the caret points at what the error is about; behind
any other boundary another line is shown.
-/

namespace Scriptlet

/-! ## The line of an offset -/

/-- What stands in the line of an offset before it. -/
def lineBefore (source : Text) (offset : Nat) : Text :=
  ((source.take offset).reverse.takeWhile (!startsLine ·)).reverse

/-- What stands in the line of an offset from there on, without what starts the next line. -/
def lineAfter (source : Text) (offset : Nat) : Text :=
  (source.drop offset).takeWhile (!startsLine ·)

/-- The column of an offset is one more than what stands before it. -/
theorem column_placeAt (source : Text) (line : Int) (offset : Nat) :
    (placeAt source line offset).column = 1 + (lineBefore source offset).length := by
  rw [lineBefore, List.length_reverse]
  rfl

/-- A text **breaks alike** for those who count lines and for those who split it: its boundaries
are those that start a line, and carriage returns in front of a line feed. -/
inductive Text.BreaksAlike : Text → Prop where
  | nil : BreaksAlike []
  | plain {c : CodePoint} {rest : Text} (plain : isLineBoundary c = false)
      (more : BreaksAlike rest) : BreaksAlike (c :: rest)
  | starts {c : CodePoint} {rest : Text} (starts : startsLine c = true)
      (more : BreaksAlike rest) : BreaksAlike (c :: rest)
  | feed {rest : Text} (more : BreaksAlike rest) :
      BreaksAlike (('\r' : CodePoint) :: ('\n' : CodePoint) :: rest)

namespace Text

variable {before rest line : Text}

theorem isLineBoundary_of_startsLine {c : CodePoint} (h : startsLine c = true) :
    isLineBoundary c = true := by
  simp only [startsLine, Bool.or_eq_true, beq_iff_eq] at h
  rcases h with (rfl | rfl) | rfl <;> rfl

theorem startsLine_of_isLineBoundary_eq_false {c : CodePoint} (h : isLineBoundary c = false) :
    startsLine c = false := by
  cases starts : startsLine c with
  | false => rfl
  | true => exact absurd (isLineBoundary_of_startsLine starts) (by rw [h]; exact nofun)

/-- A text that breaks alike does so on both sides of where it is cut, unless that is between a
carriage return and its line feed. -/
theorem BreaksAlike.of_append (h : BreaksAlike (before ++ rest))
    (apart : rest.head? ≠ some (('\n' : Char) : CodePoint)) :
    before.BreaksAlike ∧ rest.BreaksAlike := by
  generalize same : before ++ rest = t at h
  induction h generalizing before with
  | nil =>
    obtain ⟨rfl, rfl⟩ := List.append_eq_nil_iff.mp same
    exact ⟨.nil, .nil⟩
  | plain plain more ih =>
    rcases List.append_eq_cons_iff.mp same with ⟨rfl, rfl⟩ | ⟨before, rfl, further⟩
    · exact ⟨.nil, .plain plain more⟩
    · exact (ih further.symm).imp (.plain plain) id
  | starts starts more ih =>
    rcases List.append_eq_cons_iff.mp same with ⟨rfl, rfl⟩ | ⟨before, rfl, further⟩
    · exact ⟨.nil, .starts starts more⟩
    · exact (ih further.symm).imp (.starts starts) id
  | feed more ih =>
    rcases List.append_eq_cons_iff.mp same with ⟨rfl, rfl⟩ | ⟨before, rfl, further⟩
    · exact ⟨.nil, .feed more⟩
    rcases List.append_eq_cons_iff.mp further.symm with ⟨rfl, rfl⟩ | ⟨before, rfl, beyond⟩
    · exact absurd rfl apart
    · exact (ih beyond.symm).imp .feed id

/-- A text breaks alike if all its boundaries start a line. -/
theorem breaksAlike_of_forall {t : Text}
    (h : ∀ c ∈ t, isLineBoundary c = true → startsLine c = true) : t.BreaksAlike := by
  induction t with
  | nil => exact .nil
  | cons c rest ih =>
    obtain ⟨here, there⟩ := List.forall_mem_cons.mp h
    cases boundary : isLineBoundary c with
    | false => exact .plain boundary (ih there)
    | true => exact .starts (here boundary) (ih there)

/-- What comes first in a text that breaks alike is no boundary, unless a line ends there. -/
theorem BreaksAlike.plain_of_head {c : CodePoint} (h : BreaksAlike (c :: rest))
    (apart : isLineEnd c = false) : isLineBoundary c = false := by
  cases h with
  | plain plain => exact plain
  | starts starts =>
    simp only [startsLine, Bool.or_eq_true, beq_iff_eq] at starts
    rcases starts with (rfl | rfl) | rfl <;> cases apart
  | feed => cases apart

/-! ## Splitting a text into lines -/

theorem takeWhile_append_stop {p : CodePoint → Bool} {c : CodePoint} (hc : p c = false)
    (xs ys : Text) : (xs ++ c :: ys).takeWhile p = xs.takeWhile p := by
  rw [List.takeWhile_append, List.takeWhile_cons_of_neg (by rw [hc]; exact nofun),
    List.append_nil]
  split
  · rename_i all
    exact ((List.takeWhile_prefix p).eq_of_length all).symm
  · rfl

/-- **Splitting counts the lines of what breaks alike.** Behind it the line that is open is what
of it stands in the last line. -/
theorem BreaksAlike.linesAux_append (h : before.BreaksAlike) (rest : Text)
    (closed : ∀ c ∈ line, startsLine c = false) :
    (linesAux line false (before ++ rest)).drop (before.countP startsLine)
      = linesAux ((before.reverse ++ line).takeWhile (!startsLine ·)) false rest := by
  induction h generalizing line with
  | nil =>
    rw [List.countP_nil, List.drop_zero, List.reverse_nil, List.nil_append, List.nil_append,
      List.takeWhile_eq_self_iff.mpr fun c hc => by rw [closed c hc]; rfl]
  | @plain c rest' plain _ ih =>
    have stays := startsLine_of_isLineBoundary_eq_false plain
    rw [List.cons_append, linesAux, Bool.false_and, if_neg Bool.false_ne_true, plain,
      if_neg Bool.false_ne_true, List.countP_cons_of_neg (by rw [stays]; exact nofun),
      ih (List.forall_mem_cons.mpr ⟨stays, closed⟩), List.reverse_cons, List.append_assoc,
      List.singleton_append]
  | @starts c rest' starts _ ih =>
    have noReturn : (c == ('\r' : CodePoint)) = false := by
      refine beq_eq_false_iff_ne.mpr ?_
      rintro rfl
      cases starts
    rw [List.cons_append, linesAux, Bool.false_and, if_neg Bool.false_ne_true,
      isLineBoundary_of_startsLine starts, if_pos rfl, noReturn, List.countP_cons_of_pos starts,
      List.drop_succ_cons, ih (List.forall_mem_nil _), List.append_nil, List.reverse_cons, List.append_assoc,
      List.singleton_append, takeWhile_append_stop (by rw [starts]; rfl)]
  | @feed rest' _ ih =>
    rw [List.cons_append, linesAux, Bool.false_and, if_neg Bool.false_ne_true, if_pos (by decide),
      List.cons_append, linesAux, if_pos (by decide), List.countP_cons_of_neg (by decide),
      List.countP_cons_of_pos (by decide), List.drop_succ_cons, ih (List.forall_mem_nil _), List.append_nil,
      List.reverse_cons, List.reverse_cons, List.append_assoc, List.append_assoc,
      List.singleton_append, takeWhile_append_stop (by decide)]

/-- The line that is open goes on up to the next boundary; there is none if nothing is open and
nothing comes. -/
theorem head?_linesAux (line rest : Text) :
    (linesAux line false rest).head? = none ∨
      (linesAux line false rest).head? = some (line.reverse ++ rest.takeWhile (!isLineBoundary ·)) := by
  induction rest generalizing line with
  | nil =>
    unfold linesAux
    split
    · exact .inl rfl
    · exact .inr (by rw [List.takeWhile_nil, List.append_nil]; rfl)
  | cons c rest ih =>
    rw [linesAux, Bool.false_and, if_neg Bool.false_ne_true]
    cases boundary : isLineBoundary c with
    | true =>
      rw [if_pos rfl, List.takeWhile_cons_of_neg (by rw [boundary]; exact nofun), List.append_nil]
      exact .inr rfl
    | false =>
      rw [if_neg Bool.false_ne_true, List.takeWhile_cons_of_pos (by rw [boundary]; rfl)]
      simpa using ih (c :: line)

/-- In what breaks alike the next boundary is where the line ends, but for a carriage return. -/
theorem BreaksAlike.takeWhile_eq
    (h : BreaksAlike (rest.take ((rest.takeWhile (!startsLine ·)).length + 1))) :
    rest.takeWhile (!startsLine ·) = rest.takeWhile (!isLineBoundary ·) ∨
      rest.takeWhile (!startsLine ·) = rest.takeWhile (!isLineBoundary ·) ++ [('\r' : CodePoint)] := by
  induction rest with
  | nil => exact .inl rfl
  | cons c rest ih =>
    cases starts : startsLine c with
    | true =>
      rw [List.takeWhile_cons_of_neg (by rw [starts]; exact nofun),
        List.takeWhile_cons_of_neg (by rw [isLineBoundary_of_startsLine starts]; exact nofun)]
      exact .inl rfl
    | false =>
      rw [List.takeWhile_cons_of_pos (by rw [starts]; rfl)] at h ⊢
      rw [List.length_cons, List.take_succ_cons] at h
      generalize upTo : rest.take ((rest.takeWhile (!startsLine ·)).length + 1) = t at h
      cases h with
      | plain plain more =>
        rw [List.takeWhile_cons_of_pos (by rw [plain]; rfl)]
        exact (ih (upTo ▸ more)).imp (congrArg _) (congrArg _)
      | starts starts' => exact absurd (starts.symm.trans starts') nofun
      | feed more =>
        -- The line feed behind the carriage return ends the line.
        obtain ⟨after, rfl⟩ : ∃ after, rest = ('\n' : CodePoint) :: after := by
          cases rest with
          | nil => cases upTo
          | cons d after => exact ⟨after, by rw [(List.cons.inj upTo).1]⟩
        exact .inr rfl

end Text

/-- **The line that is shown for an offset** is its line, if the source breaks alike up to the end
of that; or there is none, which may be so at the end of the source. -/
theorem sourceLine?_placeAt {source : Text} {offset : Nat}
    (alike : Text.BreaksAlike (source.take (offset + ((lineAfter source offset).length + 1))))
    (apart : source[offset]? ≠ some (('\n' : Char) : CodePoint)) :
    Report.sourceLine? source (placeAt source 1 offset).line = none ∨
      ∃ after, (lineAfter source offset = after ∨
          lineAfter source offset = after ++ [('\r' : CodePoint)])
        ∧ after = (source.drop offset).takeWhile (!Text.isLineBoundary ·)
        ∧ Report.sourceLine? source (placeAt source 1 offset).line
          = some (lineBefore source offset ++ after) := by
  rw [List.take_add] at alike
  obtain ⟨before, rest⟩ := alike.of_append (by
    rwa [List.head?_take, if_neg (Nat.succ_ne_zero _), List.head?_drop])
  have closed : ∀ c ∈ ([] : Text), startsLine c = false := List.forall_mem_nil _
  have split := before.linesAux_append (source.drop offset) closed
  rw [List.take_append_drop, List.append_nil] at split
  have line : Report.sourceLine? source (placeAt source 1 offset).line
      = (Text.linesAux (lineBefore source offset).reverse false (source.drop offset)).head? := by
    have first : (placeAt source 1 offset).line = (1 : Int) + (source.take offset).countP startsLine :=
      rfl
    rw [lineBefore, List.reverse_reverse, ← split, List.head?_drop, Report.sourceLine?,
      if_pos (by omega), Text.lines]
    congr 1
    omega
  rw [line]
  refine (Text.head?_linesAux _ _).imp id fun shown => ⟨_, rest.takeWhile_eq, rfl, ?_⟩
  rw [shown, List.reverse_reverse]

/-! ## Reports -/

/-- A report **points at** an offset of a source: if it shows a line at all, that is the line of the
offset, without the carriage return that may be part of its end, and the caret stands below what
stands at the offset, or behind all of the line where nothing does. -/
def Report.PointsAt (r : Report) (source : Text) (offset : Nat) : Prop :=
  r.render source = "Error: " ++ r.message ∨
    ∃ after : Text,
      (lineAfter source offset = after ∨ lineAfter source offset = after ++ [('\r' : CodePoint)])
      ∧ after.head? = source[offset]?
      ∧ r.render source = "Error: " ++ r.message ++ "\n  " ++ (lineBefore source offset ++ after)
        ++ ("\n  " ++ (List.replicate (lineBefore source offset).length (' ' : CodePoint) ++ "^"))

/-- A report with the place of an offset **points at the offset** if the source breaks alike up to
the end of its line, and no line ends there. -/
theorem Report.pointsAt {r : Report} {source : Text} {offset : Nat}
    (line : r.line = some (placeAt source 1 offset).line)
    (column : r.column = some ((placeAt source 1 offset).column : Int))
    (alike : Text.BreaksAlike (source.take (offset + ((lineAfter source offset).length + 1))))
    (apart : ∀ c, source[offset]? = some c → isLineEnd c = false) : r.PointsAt source offset := by
  have noFeed : source[offset]? ≠ some (('\n' : Char) : CodePoint) :=
    fun feed => absurd (apart _ feed) (by decide)
  rcases sourceLine?_placeAt alike noFeed with none | ⟨after, rest, there, some⟩
  · refine .inl ?_
    simp only [render, line, none]
  · refine .inr ⟨after, rest, ?_, ?_⟩
    · rw [there, ← List.head?_drop]
      cases same : source.drop offset with
      | nil => rfl
      | cons c more =>
        have here : source[offset]? = Option.some c := by rw [← List.head?_drop, same]; rfl
        rw [List.take_add, same, List.take_succ_cons] at alike
        have plain := (alike.of_append (fun feed => noFeed (here.trans feed))).2.plain_of_head
          (apart c here)
        rw [List.takeWhile_cons_of_pos (by rw [plain]; rfl)]
        rfl
    · simp only [render, line, some, column, column_placeAt, caret]
      congr 4
      omega

/-! ## Errors -/

/-- An error is about what **starts at** an offset of a source: a token, if it is one of the
grammar, and else what the scan is stuck on behind the tokens before it. -/
inductive SyntaxError.StartsAt (source : Text) : SyntaxError → Nat → Prop where
  | token (cause : ParseCause) {t : Token} {offset : Nat} (stands : t.StandsAt source 1 offset) :
      StartsAt source (.parse ⟨cause, ⟨t.line, t.column⟩⟩) offset
  | stuck {e : LexError} {tokens : List Token} {stop offset : Nat}
      (laid : Laid source 1 tokens stop) (le : stop ≤ offset)
      (gap : Text.IsGap (source.slice stop offset) (source.drop offset))
      (stuck : IsStuck (!(tokens.getLast?.any (·.kind.endsValue))) (source.drop offset) e.cause) :
      StartsAt source (.lex e) offset

/-- Whether a source **has a template**. -/
def Text.HasTemplate (source : Text) : Prop :=
  ∃ tokens, tokenize source 1 = .ok tokens ∧ ∃ t ∈ tokens, t.kind = .template

instance (source : Text) : Decidable source.HasTemplate :=
  decidable_of_iff
    ((tokenize source 1).toOption.any fun tokens => tokens.any (·.kind == .template)) <| by
    unfold Text.HasTemplate
    cases tokenize source 1 with
    | error e => simp [Except.toOption]
    | ok tokens => simp [Except.toOption]

/-- A scan goes over what ends a line. -/
theorem scan_of_isLineEnd {allowed : Bool} {c : CodePoint} {rest : Text} (h : isLineEnd c = true) :
    scan allowed c rest = .ok (.gap 1) := by
  unfold scan
  dsimp only
  rw [h, Bool.true_or, if_pos rfl]

/-- No line ends where a token starts. -/
theorem Token.StandsAt.apart {source : Text} {line : Int} {t : Token} {offset : Nat}
    (h : t.StandsAt source line offset) {c : CodePoint} (hc : source[offset]? = some c) :
    isLineEnd c = false := by
  obtain ⟨before, after, cut, -⟩ := id h
  have apart : ∀ c ∈ t.source.head?, isLineEnd c = false := by
    refine forall_of_tokenize (P := fun t => ∀ c ∈ t.source.head?, isLineEnd c = false) ?_
      (fun _ _ _ => nofun) cut t (List.mem_append_right _ List.mem_cons_self)
    intro allowed d rest kind n found line column newlineBefore e he
    obtain ⟨pos, -⟩ := scan_recurs found
    rw [scan_keeps found, List.head?_take, if_neg (Nat.ne_of_gt pos)] at he
    obtain rfl := Option.some.inj he
    cases ends : isLineEnd d with
    | false => rfl
    | true => exact absurd ((scan_of_isLineEnd ends).symm.trans found) nofun
  cases source' : t.source with
  | nil =>
    rw [h.eq_length source', List.getElem?_eq_none (Nat.le_refl _)] at hc
    cases hc
  | cons d rest =>
    obtain ⟨more, same⟩ := h.stands
    rw [← List.head?_drop, ← same, source'] at hc
    exact apart c (by rw [source']; exact hc)

/-- No line ends where a scan is stuck. -/
theorem IsStuck.apart {allowed : Bool} {source : Text} {offset : Nat} {cause : LexCause}
    (h : IsStuck allowed (source.drop offset) cause) {c : CodePoint}
    (hc : source[offset]? = some c) : isLineEnd c = false := by
  obtain ⟨d, rest, same, failed⟩ := h
  rw [← List.head?_drop, same] at hc
  obtain rfl := Option.some.inj hc
  cases ends : isLineEnd d with
  | false => rfl
  | true => exact absurd ((scan_of_isLineEnd ends).symm.trans failed) nofun

/-- A token of a source that is no template, and **stands in it**. -/
def Token.IsPlainIn (source : Text) (t : Token) : Prop :=
  t.kind ≠ .template ∧ ∃ offset, t.StandsAt source 1 offset

theorem isPlainIn_closed (source : Text) : Token.Closed (Token.IsPlainIn source) :=
  fun _ ht template => absurd template ht.1

/-- Where there is no template, all tokens are plain. -/
theorem isPlainIn_yields {source : Text} (noTemplate : ¬ source.HasTemplate) :
    Token.Yields (Token.IsPlainIn source) source 1 :=
  fun tokens cut t ht =>
    ⟨fun template => noTemplate ⟨tokens, cut, t, ht, template⟩, exists_standsAt cut ht⟩

/-- **An error has the place of the offset at which what it is about starts**, and no line ends
there. -/
theorem parseProgram_startsAt {source : Text} {e : SyntaxError}
    (failed : parseProgram source = .error e) (noTemplate : ¬ source.HasTemplate) :
    ∃ offset, e.StartsAt source offset ∧ e.place? = some (placeAt source 1 offset)
      ∧ ∀ c, source[offset]? = some c → isLineEnd c = false := by
  have answer := parseProgram_madeOf (isPlainIn_closed source) (isPlainIn_yields noTemplate)
  rw [failed] at answer
  rcases answer with ⟨cause, cut, rfl⟩ | isAt
  · have laid := tokenize_lays_out source 1
    rw [cut] at laid
    obtain ⟨tokens, stop, offset, laid, le, gap, stuck, place⟩ := laid
    exact ⟨offset, .stuck laid le gap stuck, place, fun _ => stuck.apart⟩
  · cases isAt with
    | token cause ht =>
      obtain ⟨-, offset, stands⟩ := ht
      exact ⟨offset, .token cause stands, congrArg some stands.place, fun _ => stands.apart⟩
    | template e ht template => exact absurd template ht.1
    | tooDeep => exact absurd failed (parseProgram_ne_tooDeep source)

/-- A source without templates **has its errors pointed at** if the report of an error points at
where what the error is about starts. -/
def Text.PointsAtErrors (source : Text) : Prop :=
  ∀ e, parseProgram source = .error e → ¬ source.HasTemplate →
    ∃ offset, e.StartsAt source offset ∧
      ∀ r, (Interrupt.malformed e).report? = some r → r.PointsAt source offset

/-- **The caret points at the error** if the source breaks alike for those who count its lines and
for those who split it, up to the end of the line in which what the error is about starts: the line
that is shown is that line, and the caret stands below the first code point there, or behind the
line if there is none. -/
theorem points_at_errors {source : Text} {e : SyntaxError}
    (failed : parseProgram source = .error e) (noTemplate : ¬ source.HasTemplate) :
    ∃ offset, e.StartsAt source offset
      ∧ (Text.BreaksAlike (source.take (offset + ((lineAfter source offset).length + 1))) →
        ∀ r, (Interrupt.malformed e).report? = some r → r.PointsAt source offset) := by
  obtain ⟨offset, starts, place, apart⟩ := parseProgram_startsAt failed noTemplate
  refine ⟨offset, starts, fun alike r hr => ?_⟩
  obtain rfl := Option.some.inj hr
  refine Report.pointsAt ?_ ?_ alike apart
  · rw [place]
    rfl
  · rw [place]
    rfl

/-- A number on the second line that may not stand there. -/
theorem points_at_errors_of_number :
    ∃ (e : SyntaxError) (r : Report) (offset : Nat),
      parseProgram "a = (1\n  2)" = .error e ∧ ¬ Text.HasTemplate "a = (1\n  2)"
      ∧ e.StartsAt "a = (1\n  2)" offset
      ∧ Text.BreaksAlike (List.take (offset + ((lineAfter "a = (1\n  2)" offset).length + 1))
          ("a = (1\n  2)" : Text))
      ∧ (Interrupt.malformed e).report? = some r ∧ r.PointsAt "a = (1\n  2)" offset := by
  have fails : (parseProgram "a = (1\n  2)").isOk = false := by decide +kernel
  have noTemplate : ¬ Text.HasTemplate "a = (1\n  2)" := by decide +kernel
  cases failed : parseProgram "a = (1\n  2)" with
  | ok program => simp [failed, Except.isOk, Except.toBool] at fails
  | error e =>
    obtain ⟨offset, starts, points⟩ := points_at_errors failed noTemplate
    have plain : ∀ c ∈ Text.ofString "a = (1\n  2)", Text.isLineBoundary c = true →
        startsLine c = true := by decide
    have alike (n : Nat) : Text.BreaksAlike (List.take n ("a = (1\n  2)" : Text)) :=
      Text.breaksAlike_of_forall fun c hc => plain c (List.mem_of_mem_take hc)
    exact ⟨e, _, offset, rfl, noTemplate, starts, alike _, rfl, points (alike _) _ rfl⟩

/-- A name behind a form feed that may not stand there: the line that is shown is the part in front
of the form feed, which is empty. -/
theorem not_pointsAtErrors_formFeed : ¬ Text.PointsAtErrors "\x0ca b" := by
  intro points
  have fails : (match parseProgram "\x0ca b" with | .error e => some e | .ok _ => none)
      = some (.parse ⟨.unexpectedIdentifier, ⟨1, 4⟩⟩) := by decide +kernel
  have failed : parseProgram "\x0ca b" = .error (.parse ⟨.unexpectedIdentifier, ⟨1, 4⟩⟩) := by
    split at fails
    · rename_i e same
      rw [same, Option.some.inj fails]
    · cases fails
  obtain ⟨offset, starts, shown⟩ := points _ failed (by decide +kernel)
  obtain rfl : offset = 3 := by
    generalize same : SyntaxError.parse ⟨.unexpectedIdentifier, ⟨1, 4⟩⟩ = e at starts
    cases starts with
    | stuck => cases same
    | token cause stands =>
      have place : placeAt "\x0ca b" 1 3 = placeAt "\x0ca b" 1 offset := by
        rw [SyntaxError.parse.injEq, ParseError.mk.injEq] at same
        rw [← stands.place, ← same.2]
        decide
      exact (placeAt_inj (by decide) (Nat.le_of_add_right_le stands.inside) place).symm
  have render (m : Text) : Report.render ⟨m, some 1, some 4⟩ ("\x0ca b" : Text)
      = ("Error: " : Text) ++ m ++ ("\n  " : Text) ++ ([] : Text)
        ++ (("\n  " : Text) ++ Report.caret 4) := rfl
  rcases shown _ rfl with none | ⟨after, rest, -, same⟩
  · have short := congrArg List.length ((render _).symm.trans none)
    simp [Report.caret, Text.ofString] at short
  · obtain rfl : after = "b" := by
      rcases rest with rest | rest
      · exact rest.symm
      · exact absurd (congrArg List.getLast? rest) (by rw [List.getLast?_concat]; decide)
    have long := congrArg List.length ((render _).symm.trans same)
    simp [Report.caret, Text.ofString, lineBefore, startsLine] at long

end Scriptlet
