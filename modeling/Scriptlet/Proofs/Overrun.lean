import Mathlib.Data.List.TakeWhile
import Scriptlet.Proofs.Scanning
import Scriptlet.Proofs.Spelling
import Scriptlet.Proofs.Splitting

/-!
# Literals that go on on another line

A string or a regular expression is cut off a text in steps: a backslash is taken together with
what stands behind it, and everything else on its own. So nothing that is taken with a backslash can
end a literal, or leave it open. Looking back from a code point, one can tell whether it is taken so
without going through the literal: an odd number of backslashes *hides* what comes next.

In a string all line feeds are hidden, and in a regular expression all line ends. Two sorts of line
ends get into literals that should be left open there: those that a backslash hides in a regular
expression, and returns in a string that nothing hides.
-/

namespace Scriptlet

/-! ## Hidden code points -/

namespace Text

/-- A text **hides** code points if each of them stands behind an odd number of backslashes. -/
def Hides (t : Text) (p : CodePoint → Prop) : Prop :=
  ∀ (before : Text) (c : CodePoint) (after : Text),
    t = before ++ c :: after → p c → before.HidesNext

/-- What hides the next code point ends with a backslash that is **not hidden itself**. -/
theorem hidesNext_iff_exists (t : Text) :
    t.HidesNext ↔ ∃ start : Text, t = start ++ [('\\' : CodePoint)] ∧ ¬ start.HidesNext := by
  have behind (start : Text) (c : CodePoint) :
      trailingBackslashes (start ++ [c])
        = if c = '\\' then start.trailingBackslashes + 1 else 0 := by
    unfold trailingBackslashes countWhile
    rw [List.reverse_concat]
    split
    · rename_i backslash
      rw [List.takeWhile_cons_of_pos (by simpa using backslash), List.length_cons]
    · rename_i other
      rw [List.takeWhile_cons_of_neg (by simpa using other)]
      rfl
  constructor
  · intro hides
    rcases List.eq_nil_or_concat t with rfl | ⟨start, c, rfl⟩
    · cases hides
    · rw [List.concat_eq_append] at hides ⊢
      unfold HidesNext at hides
      rw [behind] at hides
      split at hides
      · rename_i backslash
        refine ⟨start, by rw [backslash], fun hidden => ?_⟩
        unfold HidesNext at hidden
        omega
      · cases hides
  · rintro ⟨start, rfl, hidden⟩
    unfold HidesNext at hidden ⊢
    rw [behind, if_pos rfl]
    omega

/-- A text is **a row** if none of certain code points stands in it on its own: a row of other code
points, and of backslashes with what they hide. -/
inductive IsRow (p : CodePoint → Prop) : Text → Prop
  | nil : IsRow p []
  | plain {c : CodePoint} {t : Text} (noBackslash : c ≠ '\\') (other : ¬ p c) (more : IsRow p t) :
    IsRow p (c :: t)
  | escape (d : CodePoint) {t : Text} (more : IsRow p t) : IsRow p (('\\' : CodePoint) :: d :: t)

section Rows

variable {p q : CodePoint → Prop} {t u : Text} {c : CodePoint}

theorem Hides.imp (h : t.Hides q) (weaker : ∀ c, p c → q c) : t.Hides p :=
  fun before c after same hc => h before c after same (weaker c hc)

theorem Hides.cons (h : t.Hides p) (noBackslash : c ≠ '\\') (other : ¬ p c) : Hides (c :: t) p := by
  intro before d after same hd
  cases before with
  | nil =>
    obtain ⟨rfl, -⟩ := List.cons.inj same
    exact absurd hd other
  | cons c' before =>
    obtain ⟨rfl, rest⟩ := List.cons.inj same
    exact (hidesNext_cons noBackslash before).mpr (h before d after rest hd)

theorem Hides.escape (h : t.Hides p) (d : CodePoint) (other : ¬ p '\\') :
    Hides (('\\' : CodePoint) :: d :: t) p := by
  intro before c after same hc
  match before with
  | [] =>
    obtain ⟨rfl, -⟩ := List.cons.inj same
    exact absurd hc other
  | [c'] =>
    obtain ⟨rfl, -⟩ := List.cons.inj same
    rfl
  | c' :: d' :: before =>
    obtain ⟨rfl, behind⟩ := List.cons.inj same
    obtain ⟨rfl, rest⟩ := List.cons.inj behind
    exact (hidesNext_escape d before).mpr (h before c after rest hc)

theorem Hides.append (h : t.Hides p) (none : ∀ c ∈ u, ¬ p c) : Hides (t ++ u) p := by
  intro before c after same hc
  obtain ⟨_, -, rfl⟩ | ⟨rest, rfl, behind⟩ := List.append_eq_append_iff.mp same
  · exact absurd hc (none c (by simp))
  · cases rest with
    | nil =>
      obtain rfl : c :: after = u := behind
      exact absurd hc (none c List.mem_cons_self)
    | cons d rest =>
      obtain ⟨rfl, -⟩ := List.cons.inj behind
      exact h before c rest rfl hc

theorem IsRow.hides (row : t.IsRow p) (other : ¬ p '\\') : t.Hides p ∧ ¬ t.HidesNext := by
  induction row with
  | nil =>
    refine ⟨fun before c after same => ?_, fun odd => nomatch odd⟩
    cases before <;> cases same
  | plain noBackslash no _ ih =>
    exact ⟨ih.1.cons noBackslash no, mt (hidesNext_cons noBackslash _).mp ih.2⟩
  | escape d _ ih => exact ⟨ih.1.escape d other, mt (hidesNext_escape d _).mp ih.2⟩

/-- What is hidden behind more code points **is hidden without them**, if they hide nothing. -/
theorem Hides.of_append (h : Hides (u ++ t) p)
    (apart : ∀ before : Text, (u ++ before).HidesNext → before.HidesNext) : t.Hides p :=
  fun before c after same hc =>
    apart before (h (u ++ before) c after (by rw [same, List.append_assoc]) hc)

theorem isRow_of_hides : ∀ {t : Text}, t.Hides p → ¬ t.HidesNext → t.IsRow p
  | [], _, _ => .nil
  | c :: t, hides, last => by
    by_cases backslash : c = '\\'
    · subst backslash
      match t with
      | [] => exact absurd rfl last
      | d :: t =>
        have behind (before : Text) := (hidesNext_escape d before).mp
        exact .escape d (isRow_of_hides (hides.of_append (u := ['\\', d]) behind)
          (mt (hidesNext_escape d t).mpr last))
    · have behind (before : Text) := (hidesNext_cons backslash before).mp
      exact .plain backslash (fun hc => nomatch hides [] c t rfl hc)
        (isRow_of_hides (hides.of_append (u := [c]) behind)
          (mt (hidesNext_cons backslash t).mpr last))

/-- **A row is a text that hides** those code points, and nothing behind it. -/
theorem isRow_iff (other : ¬ p '\\') : t.IsRow p ↔ t.Hides p ∧ ¬ t.HidesNext :=
  ⟨fun row => row.hides other, fun h => isRow_of_hides h.1 h.2⟩

end Rows

end Text

/-! ## Strings -/

namespace Enclosure

variable {quote : CodePoint}

theorem step?_string (c : CodePoint) (rest : Text) :
    (string quote).step? c rest =
      if c == '\\' then some (2, [string quote])
      else if c == quote then some (1, [])
      else if c == '\n' then none
      else some (1, [string quote]) := rfl

/-- **What a step in a string can be**: over a backslash and what this hides, over the quote that
ends the string, or over any other code point but a line feed. -/
theorem step?_string_cases {c : CodePoint} {rest : Text} {k : Nat} {inner : List Enclosure}
    (h : (string quote).step? c rest = some (k, inner)) :
    (c = '\\' ∧ k = 2 ∧ inner = [string quote])
      ∨ (c = quote ∧ k = 1 ∧ inner = [])
      ∨ (c ≠ '\\' ∧ ¬ (c = quote ∨ c = '\n') ∧ k = 1 ∧ inner = [string quote]) := by
  rw [step?_string] at h
  split at h
  · rename_i escape
    cases h
    exact .inl ⟨beq_iff_eq.mp escape, rfl, rfl⟩
  rename_i noBackslash
  split at h
  · rename_i close
    cases h
    exact .inr (.inl ⟨beq_iff_eq.mp close, rfl, rfl⟩)
  rename_i noQuote
  obtain ⟨noFeed, same⟩ := Option.ite_none_left_eq_some.mp h
  cases same
  refine .inr (.inr ⟨mt beq_iff_eq.mpr noBackslash, ?_, rfl, rfl⟩)
  exact not_or.mpr ⟨mt beq_iff_eq.mpr noQuote, mt beq_iff_eq.mpr noFeed⟩

/-- What is measured as a string **is a row and the quote**. -/
theorem exists_row_of_measure : ∀ {t : Text} {n m : Nat}, measure [string quote] n t = some m →
    ∃ body after : Text, t = body ++ quote :: after ∧ m = n + (body.length + 1)
      ∧ body.IsRow fun c => c = quote ∨ c = '\n'
  | [], n, m, h => by
    rw [measure_cons_nil] at h
    cases h
  | c :: rest, n, m, h => by
    rw [measure_cons_cons] at h
    obtain ⟨⟨k, inner⟩, step, more⟩ := Option.bind_eq_some_iff.mp h
    obtain ⟨rfl, rfl, rfl⟩ | ⟨rfl, rfl, rfl⟩ | ⟨noBackslash, other, rfl, rfl⟩ :=
      step?_string_cases step
    · match rest with
      | [] =>
        cases (measure_cons_nil _ _ _).symm.trans more
      | d :: rest =>
        obtain ⟨body, after, rfl, rfl, row⟩ := exists_row_of_measure more
        refine ⟨'\\' :: d :: body, after, rfl, ?_, row.escape d⟩
        rw [List.length_cons, List.length_cons]
        omega
    · obtain rfl := Option.some.inj ((measure_nil _ _).symm.trans more)
      exact ⟨[], rest, rfl, rfl, .nil⟩
    · obtain ⟨body, after, rfl, rfl, row⟩ := exists_row_of_measure more
      refine ⟨c :: body, after, rfl, ?_, .plain noBackslash other row⟩
      rw [List.length_cons]
      omega

/-- A row and the quote **are measured as a string**. -/
theorem measure_of_isRow (noBackslash : quote ≠ '\\') {body after : Text}
    (row : body.IsRow fun c => c = quote ∨ c = '\n') (n : Nat) :
    measure [string quote] n (body ++ quote :: after) = some (n + (body.length + 1)) := by
  induction row generalizing n with
  | nil =>
    have step : (string quote).step? quote after = some (1, []) := by
      rw [step?_string, if_neg (by simpa using noBackslash), if_pos (by simp)]
    rw [List.nil_append, measure_cons_cons, step]
    exact measure_nil ..
  | @plain c t plain other _ ih =>
    obtain ⟨noQuote, noFeed⟩ := not_or.mp other
    have step : (string quote).step? c (t ++ quote :: after) = some (1, [string quote]) := by
      rw [step?_string, if_neg (by simpa using plain), if_neg (by simpa using noQuote),
        if_neg (by simpa using noFeed)]
    rw [List.cons_append, measure_cons_cons, step]
    refine (ih (n + 1)).trans (congrArg some ?_)
    rw [List.length_cons]
    omega
  | @escape d t _ ih =>
    have step : (string quote).step? '\\' (d :: (t ++ quote :: after)) = some (2, [string quote]) :=
      (step?_string ..).trans (if_pos rfl)
    rw [List.cons_append, List.cons_append, measure_cons_cons, step]
    refine (ih (n + 2)).trans (congrArg some ?_)
    rw [List.length_cons, List.length_cons]
    omega

end Enclosure

/-- **A string ends with the first quote that is not hidden**, and all line feeds before it are. -/
theorem stringLength?_eq_some_iff {quote : CodePoint} (noBackslash : quote ≠ '\\') {t : Text}
    {n : Nat} :
    stringLength? quote t = some n ↔ ∃ body after : Text, t = body ++ quote :: after
      ∧ n = body.length + 1 ∧ body.Hides (fun c => c = quote ∨ c = '\n') ∧ ¬ body.HidesNext := by
  have other : ¬ (('\\' : CodePoint) = quote ∨ ('\\' : CodePoint) = '\n') :=
    not_or.mpr ⟨noBackslash.symm, by decide⟩
  constructor
  · intro h
    obtain ⟨body, after, rfl, rfl, row⟩ := Enclosure.exists_row_of_measure h
    exact ⟨body, after, rfl, Nat.zero_add _, (Text.isRow_iff other).mp row⟩
  · rintro ⟨body, after, rfl, rfl, hides⟩
    exact (Enclosure.measure_of_isRow noBackslash ((Text.isRow_iff other).mpr hides) 0).trans
      (congrArg some (Nat.zero_add _))

/-! ## Regular expressions -/

/-- The body of a regular expression **is a row and the slash**. -/
theorem exists_row_of_regexpBodyLength? {inClass : Bool} {n m : Nat} {t : Text}
    (h : regexpBodyLength? inClass n t = some m) :
    ∃ body after : Text, t = body ++ ('/' : CodePoint) :: after ∧ m = n + (body.length + 1)
      ∧ body.IsRow fun c => isLineEnd c = true := by
  -- One code point more, which is no backslash and ends no line.
  have plain {n : Nat} {c : CodePoint} {rest : Text} (noEnd : ¬ isLineEnd c = true)
      (noBackslash : ¬ (c == ('\\' : CodePoint)) = true)
      (more : ∃ body after : Text, rest = body ++ ('/' : CodePoint) :: after
        ∧ m = n + 1 + (body.length + 1) ∧ body.IsRow fun c => isLineEnd c = true) :
      ∃ body after : Text, c :: rest = body ++ ('/' : CodePoint) :: after
        ∧ m = n + (body.length + 1) ∧ body.IsRow fun c => isLineEnd c = true := by
    obtain ⟨body, after, rfl, rfl, row⟩ := more
    refine ⟨c :: body, after, rfl, ?_, .plain (mt beq_iff_eq.mpr noBackslash) noEnd row⟩
    rw [List.length_cons]
    omega
  fun_induction regexpBodyLength? inClass n t with
  | case1 | case2 | case3 => cases h
  | case4 inClass n c noEnd escape d rest ih =>
    obtain ⟨body, after, rfl, rfl, row⟩ := ih h
    refine ⟨c :: d :: body, after, rfl, ?_, ?_⟩
    · rw [List.length_cons, List.length_cons]
      omega
    · rw [beq_iff_eq.mp escape]
      exact row.escape d
  | case5 inClass n c rest noEnd escape opens ih => exact plain noEnd escape (ih h)
  | case6 inClass n c rest noEnd escape opens closes ih => exact plain noEnd escape (ih h)
  | case7 inClass n c rest noEnd escape opens closes slash =>
    obtain rfl := Option.some.inj h
    obtain rfl : c = '/' := beq_iff_eq.mp (Bool.and_eq_true_iff.mp slash).1
    exact ⟨[], rest, rfl, rfl, .nil⟩
  | case8 inClass n c rest noEnd escape opens closes slash ih => exact plain noEnd escape (ih h)

/-! ## Tokens -/

/-- What is taken of a literal: the sign that opens it, the body, the sign that closes it, and some
of what follows. -/
theorem take_enclosed (c d : CodePoint) (body after : Text) (n : Nat) :
    (c :: (body ++ d :: after)).take (body.length + 2 + n) = c :: (body ++ d :: after.take n) := by
  rw [show body.length + 2 + n = body.length + (n + 1) + 1 by omega, List.take_succ_cons,
    List.take_length_add_append, List.take_succ_cons]

/-- A string **hides its line feeds**. -/
theorem hides_of_stringLength? {quote : CodePoint} {rest : Text} {n : Nat}
    (quotes : quote = doubleQuote ∨ quote = singleQuote) (h : stringLength? quote rest = some n) :
    Text.Hides ((quote :: rest).take (n + 1)) (· = '\n') := by
  obtain ⟨noBackslash, noFeed⟩ : quote ≠ '\\' ∧ quote ≠ '\n' := by
    rcases quotes with rfl | rfl <;> decide
  obtain ⟨body, after, rfl, rfl, hides, -⟩ := (stringLength?_eq_some_iff noBackslash).mp h
  have feeds : body.Hides (· = '\n') := hides.imp fun _ => .inr
  rw [show body.length + 1 + 1 = body.length + 2 + 0 from rfl, take_enclosed]
  exact (feeds.append (List.forall_mem_singleton.mpr noFeed)).cons noBackslash noFeed

/-- No name goes on with the end of a line. -/
theorem continuesName_of_isLineEnd {c : CodePoint} (h : isLineEnd c = true) :
    continuesName c = false := by
  unfold isLineEnd at h
  simp only [Bool.or_eq_true, beq_iff_eq] at h
  obtain ((rfl | rfl) | rfl) | rfl := h <;> decide +kernel

/-- A regular expression **hides its line ends**. -/
theorem hides_of_regexpLength? {rest : Text} {n : Nat}
    (h : regexpLength? (('/' : CodePoint) :: rest) = some n) :
    Text.Hides ((('/' : CodePoint) :: rest).take n) (isLineEnd · = true) := by
  obtain ⟨m, measured, rfl⟩ := Option.map_eq_some_iff.mp h
  obtain ⟨body, after, same, rfl, row⟩ := exists_row_of_regexpBodyLength? measured
  obtain rfl : rest = body ++ ('/' : CodePoint) :: after := same
  have flags : (('/' : CodePoint) :: (body ++ ('/' : CodePoint) :: after)).drop (body.length + 2)
      = after := by
    rw [List.drop_succ_cons, List.drop_length_add_append]
    rfl
  rw [show 1 + (body.length + 1) = body.length + 2 by omega, flags, take_enclosed, take_countWhile]
  have hides := (row.hides (by decide)).1
  refine (hides.append (List.forall_mem_cons.mpr ⟨by decide, fun c mem lineEnd => ?_⟩)).cons
    (by decide) (by decide)
  exact Bool.eq_false_iff.mp (continuesName_of_isLineEnd lineEnd) (List.mem_takeWhile_imp mem)

/-- A literal **keeps to its lines** if it is no regular expression with a line end in it, and if a
line feed or a return in a string stands directly behind a backslash that is not hidden, or is the
feed of such a return. -/
def Token.KeepsToLines (t : Token) : Prop :=
  (t.kind = .regexp → ∀ c ∈ t.text, isLineEnd c = false)
  ∧ (t.kind = .string → ∀ (before : Text) (c : CodePoint) (after : Text),
      t.text = before ++ c :: after → c = '\n' ∨ c = '\r' →
        before.HidesNext
          ∨ c = '\n' ∧ ∃ start : Text, before = start ++ [('\r' : CodePoint)] ∧ start.HidesNext)

/-- Where all line ends are hidden, there is none **unless a backslash that is not hidden stands
directly before one**. -/
theorem Text.Hides.no_lineEnd_iff {t : Text} (h : t.Hides (isLineEnd · = true)) :
    (∀ c ∈ t, isLineEnd c = false) ↔ ∀ (before : Text) (c : CodePoint) (after : Text),
      t = before ++ ('\\' : CodePoint) :: c :: after → ¬ before.HidesNext →
        isLineEnd c = false := by
  constructor
  · exact fun none before c after same _ => none c (by rw [same]; simp)
  · intro none c mem
    by_contra lineEnd
    obtain ⟨before, after, rfl⟩ := List.append_of_mem mem
    have hides := h before c after rfl (by simpa using lineEnd)
    obtain ⟨start, rfl, shown⟩ := (Text.hidesNext_iff_exists before).mp hides
    exact lineEnd (none start c after (List.append_assoc ..) shown)

/-- **No literal goes on behind a line end that is not hidden**: a regular expression behind none,
and a string behind no line feed. So literals keep to their lines except in two cases, where a
backslash hides a line end in a regular expression, and where a return in a string is not hidden. -/
theorem tokenize_hides_lineEnds {source : Text} {line : Int} {tokens : List Token}
    (h : tokenize source line = .ok tokens) : ∀ t ∈ tokens,
      (t.kind = .regexp → t.text.Hides (isLineEnd · = true))
      ∧ (t.kind = .string → t.text.Hides (· = '\n'))
      ∧ (t.KeepsToLines ↔
        (t.kind = .regexp → ∀ (before : Text) (c : CodePoint) (after : Text),
          t.text = before ++ ('\\' : CodePoint) :: c :: after → ¬ before.HidesNext →
            isLineEnd c = false)
        ∧ (t.kind = .string → t.text.Hides (· = '\r'))) := by
  have hidden : ∀ t ∈ tokens, (t.kind = .regexp → t.text.Hides (isLineEnd · = true))
      ∧ (t.kind = .string → t.text.Hides (· = '\n')) := by
    refine forall_of_tokenize (fun {allowed c rest kind n} found line column newlineBefore => ?_)
      (fun _ _ _ => ⟨nofun, nofun⟩) h
    obtain ⟨string, -, regexp⟩ := scan_measured found
    refine ⟨fun same => ?_, fun same => ?_⟩
    · obtain rfl : kind = .regexp := same
      obtain ⟨rfl, length⟩ := regexp rfl
      exact hides_of_regexpLength? length
    · obtain rfl : kind = .string := same
      obtain ⟨quotes, length⟩ := string rfl
      obtain ⟨m, measured, rfl⟩ := Option.map_eq_some_iff.mp length
      exact hides_of_stringLength? quotes measured
  intro t mem
  obtain ⟨regexp, string⟩ := hidden t mem
  refine ⟨regexp, string, and_congr (forall_congr' fun same => (regexp same).no_lineEnd_iff)
    (forall_congr' fun same => ?_)⟩
  constructor
  · intro keeps before c after cut hc
    subst hc
    exact (keeps before '\r' after cut (.inr rfl)).resolve_right fun feed => nomatch feed.1
  · rintro returns before c after cut (feed | hc)
    · exact .inl (string same before c after cut feed)
    · exact .inl (returns before c after cut hc)

/-- A string that goes on on the next line, and a regular expression. -/
theorem tokenize_hides_lineEnds_of_continued :
    ∃ tokens, tokenize "'a\\\nb'+/c\\/d/g" 1 = .ok tokens
      ∧ tokens.map Token.text = [("'a\\\nb'" : Text), "+", "/c\\/d/g", ""]
      ∧ ∀ t ∈ tokens, (t.kind = .regexp → t.text.Hides (isLineEnd · = true))
        ∧ (t.kind = .string → t.text.Hides (· = '\n'))
        ∧ (t.KeepsToLines ↔
          (t.kind = .regexp → ∀ (before : Text) (c : CodePoint) (after : Text),
            t.text = before ++ ('\\' : CodePoint) :: c :: after → ¬ before.HidesNext →
              isLineEnd c = false)
          ∧ (t.kind = .string → t.text.Hides (· = '\r'))) := by
  have cut : (tokenize "'a\\\nb'+/c\\/d/g" 1).toOption = some
      [⟨.string, "'a\\\nb'", 1, 1, false⟩, ⟨.operator, "+", 2, 3, false⟩,
        ⟨.regexp, "/c\\/d/g", 2, 4, false⟩, ⟨.endOfText, [], 2, 11, false⟩] := by decide +kernel
  exact ⟨_, Except.eq_ok_of_toOption cut, by decide,
    tokenize_hides_lineEnds (Except.eq_ok_of_toOption cut)⟩

/-- **Two literals that do not keep to their lines**: a regular expression with a backslash at the
end of a line, and a string with a return in it. -/
theorem not_keepsToLines_of_lineEnd :
    (∃ tokens t, tokenize "/a\\\nb/" 1 = .ok tokens ∧ t ∈ tokens ∧ t.kind = .regexp
      ∧ t.text = "/a\\\nb/" ∧ ¬ t.KeepsToLines)
    ∧ ∃ tokens t, tokenize "'a\rb'" 1 = .ok tokens ∧ t ∈ tokens ∧ t.kind = .string
      ∧ t.text = "'a\rb'" ∧ ¬ t.KeepsToLines := by
  have cutRegexp : (tokenize "/a\\\nb/" 1).toOption = some
      [⟨.regexp, "/a\\\nb/", 1, 1, false⟩, ⟨.endOfText, [], 2, 3, false⟩] := by decide +kernel
  have cutString : (tokenize "'a\rb'" 1).toOption = some
      [⟨.string, "'a\rb'", 1, 1, false⟩, ⟨.endOfText, [], 1, 6, false⟩] := by decide +kernel
  refine ⟨⟨_, _, Except.eq_ok_of_toOption cutRegexp, List.mem_cons_self, rfl, rfl, fun keeps => ?_⟩,
    ⟨_, _, Except.eq_ok_of_toOption cutString, List.mem_cons_self, rfl, rfl, fun keeps => ?_⟩⟩
  · cases keeps.1 rfl '\n' (by decide)
  · obtain hidden | ⟨feed, -⟩ := keeps.2 rfl "'a" '\r' "b'" rfl (.inr rfl)
    · cases hidden
    · cases feed

end Scriptlet
