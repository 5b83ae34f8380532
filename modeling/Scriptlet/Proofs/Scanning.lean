import Scriptlet.Proofs.Measure

/-!
# What scans find

A scan finds a gap or a token. What it calls a gap is one: a blank, the end of a line, or
a complete comment. What it calls a token gives its source back, and is *found again*
wherever that source stands before a space, a line feed or the end of the text, as long
as a slash is read the same way.

For the signs this rests on the vocabulary: the first sign that fits is found, and no
sign goes on with a separator, so that cutting off what follows lets no other sign in.
-/

namespace Scriptlet

/-! ## Signs -/

/-- A sign that starts a text of which a sign is cut off starts the text. -/
theorem isPrefixOf_of_take_append {t u : Text} {sign : Text × TokenKind} {n : Nat}
    (hsign : sign ∈ signs) (hu : u.Separates)
    (h : sign.1.isPrefixOf (t.take n ++ u) = true) : sign.1.isPrefixOf t = true := by
  have noSeparator : ∀ sign ∈ signs, (' ' : CodePoint) ∉ sign.1 ∧ ('\n' : CodePoint) ∉ sign.1 := by
    decide
  rw [List.isPrefixOf_iff_prefix] at h ⊢
  rcases List.prefix_or_prefix_of_prefix h (List.prefix_append _ u) with inside | ⟨more, same⟩
  · exact inside.trans (List.take_prefix n t)
  · -- The sign would go on into what separates, but no sign holds a separator.
    rw [← same] at h ⊢
    cases more with
    | nil => rw [List.append_nil]; exact List.take_prefix n t
    | cons d more =>
      have hd : d ∈ sign.1 := by rw [← same]; simp
      obtain ⟨noSpace, noFeed⟩ := noSeparator sign hsign
      obtain ⟨rest, rfl⟩ := (List.prefix_append_right_inj _).mp h
      rcases hu d rfl with rfl | rfl
      · exact absurd hd noSpace
      · exact absurd hd noFeed

/-- The first sign that a text starts with is found again. -/
theorem scanSign_recurs {t : Text} {kind : TokenKind} {n : Nat}
    (h : scanSign t = .ok (.token kind n)) :
    0 < n ∧ n ≤ t.length ∧
      ∀ u : Text, u.Separates → scanSign (t.take n ++ u) = .ok (.token kind n) := by
  have notEmpty : ∀ sign ∈ signs, sign.1 ≠ [] := by decide
  unfold scanSign at h
  split at h
  case h_2 => cases h
  rename_i sign kind' found
  cases h
  have member := List.mem_of_find?_eq_some found
  have first := List.find?_some found
  have starts := List.isPrefixOf_iff_prefix.mp first
  refine ⟨List.length_pos_iff.mpr (notEmpty _ member), starts.length_le, fun u hu => ?_⟩
  have same : signs.find? (fun sign' => sign'.1.isPrefixOf (t.take sign.length ++ u))
      = some (sign, kind) := by
    obtain ⟨-, before, after, split, earlier⟩ := List.find?_eq_some_iff_append.mp found
    refine List.find?_eq_some_iff_append.mpr ⟨?_, before, after, split, fun sign' hsign' => ?_⟩
    · rw [← List.prefix_iff_eq_take.mp starts]
      exact List.isPrefixOf_iff_prefix.mpr (List.prefix_append sign u)
    · have no := earlier sign' hsign'
      have listed : sign' ∈ signs := by rw [split]; exact List.mem_append_left _ hsign'
      rw [Bool.not_eq_true', Bool.eq_false_iff] at no ⊢
      exact fun h => no (isPrefixOf_of_take_append listed hu h)
  unfold scanSign
  rw [same]

/-! ## Scans -/

/-- What is scanned where neither a blank nor a comment starts. -/
def scanToken (regexpAllowed : Bool) (c : CodePoint) (rest : Text) : Except LexCause Scan :=
  let t := c :: rest
  if c == doubleQuote || c == singleQuote then
    tokenOr .invalidToken .string ((stringLength? c rest).map (· + 1))
  else if c == backtick then
    tokenOr .openTemplate .template ((templateLength? rest).map (· + 1))
  else if Text.isDigit c || (c == '.' && headIs Text.isDigit rest) then
    tokenOr .invalidToken .number (numberLength? t)
  else if startsName c then
    let word := t.takeWhile continuesName
    .ok (.token (kindOfWord word) word.length)
  else if c == '/' && regexpAllowed then tokenOr .openRegexp .regexp (regexpLength? t)
  else scanSign t

/-- Whether a text, which begins with `c`, starts with a blank or a comment. -/
def startsGap (c : CodePoint) (rest : Text) : Bool :=
  (isLineEnd c || isSpace c) || (c == '/' && headIs (· == '/') rest)
    || (c == '/' && headIs (· == '*') rest)

theorem scan_of_startsGap_eq_false {regexpAllowed : Bool} {c : CodePoint} {rest : Text}
    (h : startsGap c rest = false) :
    scan regexpAllowed c rest = scanToken regexpAllowed c rest := by
  unfold startsGap at h
  rw [Bool.or_eq_false_iff, Bool.or_eq_false_iff] at h
  obtain ⟨⟨blank, line⟩, block⟩ := h
  unfold scan
  dsimp only
  rw [blank, line, block, if_neg Bool.false_ne_true, if_neg Bool.false_ne_true,
    if_neg Bool.false_ne_true]
  rfl

/-- Whether a code point starts nothing but a name or a sign, whatever follows it. -/
def isBare (c : CodePoint) : Bool :=
  !(isLineEnd c || isSpace c || c == '/' || c == doubleQuote || c == singleQuote || c == backtick
    || Text.isDigit c || c == '.')

/-- **What is scanned from a bare code point on** is a word or a sign. -/
theorem scan_bare {c : CodePoint} (h : isBare c = true) (regexpAllowed : Bool) (u : Text) :
    scan regexpAllowed c u =
      if startsName c then
        .ok (.token (kindOfWord ((c :: u).takeWhile continuesName))
          ((c :: u).takeWhile continuesName).length)
      else scanSign (c :: u) := by
  simp only [isBare, Bool.not_eq_true', Bool.or_eq_false_iff] at h
  obtain ⟨⟨⟨⟨⟨⟨⟨lineEnd, space⟩, slash⟩, double⟩, single⟩, tick⟩, digit⟩, dot⟩ := h
  have noGap : startsGap c u = false := by
    rw [startsGap, lineEnd, space, slash]
    rfl
  rw [scan_of_startsGap_eq_false noGap]
  simp only [scanToken, double, single, tick, digit, dot, slash, Bool.or_self, Bool.false_and,
    Bool.false_eq_true, if_false]

/-- A scan of a token starts with no gap. -/
theorem startsGap_eq_false_of_scan {regexpAllowed : Bool} {c : CodePoint} {rest : Text}
    {kind : TokenKind} {n : Nat} (h : scan regexpAllowed c rest = .ok (.token kind n)) :
    startsGap c rest = false := by
  unfold scan at h
  dsimp only at h
  split at h
  · cases h
  rename_i blank
  split at h
  · cases h
  rename_i line
  split at h
  · split at h <;> cases h
  rename_i block
  unfold startsGap
  rw [Bool.eq_false_iff.mpr blank, Bool.eq_false_iff.mpr line, Bool.eq_false_iff.mpr block]
  rfl

/-- What starts with no gap does not either if it is cut off later and a separator follows. -/
theorem startsGap_take_append {c : CodePoint} {rest u : Text} {n : Nat} (hu : u.Separates)
    (h : startsGap c rest = false) : startsGap c (rest.take n ++ u) = false := by
  unfold startsGap at h ⊢
  rw [Bool.or_eq_false_iff, Bool.or_eq_false_iff] at h ⊢
  obtain ⟨⟨blank, line⟩, block⟩ := h
  exact ⟨⟨blank, and_headIs_take_append (headIs_of_separates hu (by decide) (by decide)) line⟩,
    and_headIs_take_append (headIs_of_separates hu (by decide) (by decide)) block⟩

/-- A word is as long as the text allows, and not empty. -/
theorem word_recurs {c : CodePoint} (name : startsName c = true) (rest : Text) :
    0 < countWhile continuesName (c :: rest) ∧ ∀ u : Text, u.Separates →
      ((c :: rest).take (countWhile continuesName (c :: rest)) ++ u).takeWhile continuesName
        = (c :: rest).takeWhile continuesName := by
  have continues : continuesName c = true := by
    unfold startsName at name
    unfold continuesName Text.isAlphanumeric
    rw [Bool.or_assoc] at name ⊢
    rcases Bool.or_eq_true_iff.mp name with letter | sign
    · rw [letter]; rfl
    · rw [sign, Bool.or_true]
  refine ⟨?_, fun u hu => takeWhile_take_append (Nat.le_refl _) hu.no_part⟩
  rw [countWhile, List.takeWhile_cons_of_pos continues]
  exact Nat.succ_pos _

theorem tokenOr_eq_ok {cause : LexCause} {kind kind' : TokenKind} {length? : Option Nat} {n : Nat}
    (h : tokenOr cause kind length? = .ok (.token kind' n)) : kind' = kind ∧ length? = some n := by
  unfold tokenOr at h
  split at h
  · cases h; exact ⟨rfl, rfl⟩
  · cases h

/-- What is enclosed is found again behind the code point that opens it. -/
theorem recurs_of_measure {e : Enclosure} {rest : Text} {n : Nat}
    (h : (Enclosure.measure [e] 0 rest).map (· + 1) = some n) :
    0 < n ∧ n ≤ rest.length + 1 ∧ ∀ u : Text, u.Separates →
      (Enclosure.measure [e] 0 (rest.take (n - 1) ++ u)).map (· + 1) = some n := by
  obtain ⟨m, hm, rfl⟩ := Option.map_eq_some_iff.mp h
  obtain ⟨⟨pos, le, again⟩, -⟩ := Enclosure.recurs_measure hm
  refine ⟨Nat.succ_pos m, Nat.succ_le_succ le, fun u hu => ?_⟩
  rw [Nat.add_sub_cancel, again u hu]
  rfl

/-- **A token is found again** wherever its source stands before a separator. -/
theorem scanToken_recurs {regexpAllowed : Bool} {c : CodePoint} {rest : Text} {kind : TokenKind}
    {n : Nat} (h : scanToken regexpAllowed c rest = .ok (.token kind n)) :
    0 < n ∧ n ≤ rest.length + 1 ∧ ∀ u : Text, u.Separates →
      scanToken regexpAllowed c (rest.take (n - 1) ++ u) = .ok (.token kind n) := by
  -- What is cut off keeps its first code point.
  have front {m : Nat} (u : Text) (hm : 0 < m) :
      (c :: rest).take m ++ u = c :: (rest.take (m - 1) ++ u) := by
    cases m with
    | zero => exact absurd hm (Nat.lt_irrefl 0)
    | succ m => rfl
  unfold scanToken at h ⊢
  dsimp only at h ⊢
  by_cases quote : (c == doubleQuote || c == singleQuote) = true
  · rw [if_pos quote] at h
    obtain ⟨rfl, length⟩ := tokenOr_eq_ok h
    obtain ⟨pos, le, again⟩ := recurs_of_measure length
    refine ⟨pos, le, fun u hu => ?_⟩
    rw [if_pos quote, stringLength?, again u hu]
    rfl
  rw [if_neg quote] at h
  by_cases tick : (c == backtick) = true
  · rw [if_pos tick] at h
    obtain ⟨rfl, length⟩ := tokenOr_eq_ok h
    obtain ⟨pos, le, again⟩ := recurs_of_measure length
    refine ⟨pos, le, fun u hu => ?_⟩
    rw [if_neg quote, if_pos tick, templateLength?, again u hu]
    rfl
  rw [if_neg tick] at h
  by_cases number : (Text.isDigit c || (c == '.' && headIs Text.isDigit rest)) = true
  · rw [if_pos number] at h
    obtain ⟨rfl, length⟩ := tokenOr_eq_ok h
    obtain ⟨⟨pos, le, again⟩, point⟩ := recurs_numberLength? number length
    refine ⟨pos, le, fun u hu => ?_⟩
    have number' :
        (Text.isDigit c || (c == '.' && headIs Text.isDigit (rest.take (n - 1) ++ u))) = true := by
      by_cases digit : Text.isDigit c = true
      · rw [digit, Bool.true_or]
      · have := point (Bool.eq_false_iff.mpr digit)
        rw [headIs_take_append (fun _ => by omega) hu.no_digit, number]
    rw [if_neg quote, if_neg tick, if_pos number', ← front u pos, again u hu]
    rfl
  have number' (u : Text) (hu : u.Separates) :
      ¬ (Text.isDigit c || (c == '.' && headIs Text.isDigit (rest.take (n - 1) ++ u))) = true := by
    obtain ⟨digit, point⟩ := Bool.or_eq_false_iff.mp (Bool.eq_false_iff.mpr number)
    rw [digit, and_headIs_take_append hu.no_digit point]
    exact Bool.false_ne_true
  rw [if_neg number] at h
  by_cases name : startsName c = true
  · rw [if_pos name] at h
    obtain ⟨pos, again⟩ := word_recurs name rest
    have le := countWhile_le continuesName (c :: rest)
    unfold countWhile at pos again le
    obtain ⟨rfl, rfl⟩ := Scan.token.inj (Except.ok.inj h)
    refine ⟨pos, le, fun u hu => ?_⟩
    rw [if_neg quote, if_neg tick, if_neg (number' u hu), if_pos name, ← front u pos, again u hu]
  rw [if_neg name] at h
  by_cases slash : (c == '/' && regexpAllowed) = true
  · rw [if_pos slash] at h
    obtain ⟨rfl, length⟩ := tokenOr_eq_ok h
    obtain ⟨pos, le, again⟩ := recurs_regexpLength? length
    refine ⟨pos, le, fun u hu => ?_⟩
    rw [if_neg quote, if_neg tick, if_neg (number' u hu), if_neg name, if_pos slash, ← front u pos,
      again u hu]
    rfl
  rw [if_neg slash] at h
  obtain ⟨pos, le, again⟩ := scanSign_recurs h
  refine ⟨pos, le, fun u hu => ?_⟩
  rw [if_neg quote, if_neg tick, if_neg (number' u hu), if_neg name, if_neg slash, ← front u pos,
    again u hu]

/-- **A scanned token is found again** wherever its source stands before a separator. -/
theorem scan_recurs {regexpAllowed : Bool} {c : CodePoint} {rest : Text} {kind : TokenKind}
    {n : Nat} (h : scan regexpAllowed c rest = .ok (.token kind n)) :
    0 < n ∧ n ≤ rest.length + 1 ∧ ∀ u : Text, u.Separates →
      scan regexpAllowed c (rest.take (n - 1) ++ u) = .ok (.token kind n) := by
  have noGap := startsGap_eq_false_of_scan h
  rw [scan_of_startsGap_eq_false noGap] at h
  obtain ⟨pos, le, again⟩ := scanToken_recurs h
  refine ⟨pos, le, fun u hu => ?_⟩
  rw [scan_of_startsGap_eq_false (startsGap_take_append hu noGap), again u hu]

theorem tokenOr_ne_gap (cause : LexCause) (kind : TokenKind) (length? : Option Nat) (n : Nat) :
    tokenOr cause kind length? ≠ .ok (.gap n) := by
  unfold tokenOr
  split <;> exact nofun

/-- Where neither a blank nor a comment starts, no gap is found. -/
theorem scanToken_ne_gap (regexpAllowed : Bool) (c : CodePoint) (rest : Text) (n : Nat) :
    scanToken regexpAllowed c rest ≠ .ok (.gap n) := by
  unfold scanToken
  dsimp only
  split
  · exact tokenOr_ne_gap _ _ _ n
  split
  · exact tokenOr_ne_gap _ _ _ n
  split
  · exact tokenOr_ne_gap _ _ _ n
  split
  · exact nofun
  split
  · exact tokenOr_ne_gap _ _ _ n
  · unfold scanSign
    split <;> exact nofun

/-! ## The kinds that scans give -/

theorem kindOfWord_isWord (word : Text) : (kindOfWord word).isWord = true := by
  have listed : ∀ entry ∈ keywords, entry.2.isWord = true := by decide
  unfold kindOfWord
  split
  · rename_i kind found
    obtain ⟨before, after, same, -⟩ := List.lookup_eq_some_iff.mp found
    exact listed (word, kind) (by rw [same]; simp)
  · split <;> rfl

/-- No scan finds the end of the text, and one that finds a template has met a backtick. -/
theorem scan_kind {regexpAllowed : Bool} {c : CodePoint} {rest : Text} {kind : TokenKind}
    {n : Nat} (h : scan regexpAllowed c rest = .ok (.token kind n)) :
    kind ≠ .endOfText ∧ (kind = .template →
      c = backtick ∧ (templateLength? rest).map (· + 1) = some n) := by
  have ofSign : ∀ sign ∈ signs, sign.2 ≠ .endOfText ∧ sign.2 ≠ .template := by decide
  rw [scan_of_startsGap_eq_false (startsGap_eq_false_of_scan h)] at h
  unfold scanToken at h
  dsimp only at h
  split at h
  · obtain ⟨rfl, -⟩ := tokenOr_eq_ok h
    exact ⟨by decide, fun no => by cases no⟩
  split at h
  · rename_i tick
    obtain ⟨rfl, length⟩ := tokenOr_eq_ok h
    exact ⟨by decide, fun _ => ⟨beq_iff_eq.mp tick, length⟩⟩
  split at h
  · obtain ⟨rfl, -⟩ := tokenOr_eq_ok h
    exact ⟨by decide, fun no => by cases no⟩
  split at h
  · obtain ⟨rfl, -⟩ := Scan.token.inj (Except.ok.inj h)
    have word := kindOfWord_isWord ((c :: rest).takeWhile continuesName)
    constructor
    · intro no; rw [no] at word; cases word
    · intro no; rw [no] at word; cases word
  split at h
  · obtain ⟨rfl, -⟩ := tokenOr_eq_ok h
    exact ⟨by decide, fun no => by cases no⟩
  · unfold scanSign at h
    split at h
    · rename_i found
      cases h
      obtain ⟨noEnd, noTemplate⟩ := ofSign _ (List.mem_of_find?_eq_some found)
      exact ⟨noEnd, fun yes => absurd yes noTemplate⟩
    · cases h

/-- A scan of a string, a number or a regular expression **has measured** it. -/
theorem scan_measured {regexpAllowed : Bool} {c : CodePoint} {rest : Text} {kind : TokenKind}
    {n : Nat} (h : scan regexpAllowed c rest = .ok (.token kind n)) :
    (kind = .string → (c = doubleQuote ∨ c = singleQuote)
        ∧ (stringLength? c rest).map (· + 1) = some n)
    ∧ (kind = .number → (Text.isDigit c || (c == '.' && headIs Text.isDigit rest)) = true
        ∧ numberLength? (c :: rest) = some n)
    ∧ (kind = .regexp → c = '/' ∧ regexpLength? (c :: rest) = some n) := by
  have ofSign : ∀ sign ∈ signs, sign.2 ≠ .string ∧ sign.2 ≠ .number ∧ sign.2 ≠ .regexp := by decide
  rw [scan_of_startsGap_eq_false (startsGap_eq_false_of_scan h)] at h
  unfold scanToken at h
  dsimp only at h
  split at h
  · rename_i quotes
    obtain ⟨rfl, length⟩ := tokenOr_eq_ok h
    have quotes := (Bool.or_eq_true_iff.mp quotes).imp beq_iff_eq.mp beq_iff_eq.mp
    exact ⟨fun _ => ⟨quotes, length⟩, nofun, nofun⟩
  split at h
  · obtain ⟨rfl, -⟩ := tokenOr_eq_ok h
    exact ⟨nofun, nofun, nofun⟩
  split at h
  · rename_i start
    obtain ⟨rfl, length⟩ := tokenOr_eq_ok h
    exact ⟨nofun, fun _ => ⟨start, length⟩, nofun⟩
  split at h
  · obtain ⟨rfl, -⟩ := Scan.token.inj (Except.ok.inj h)
    have word := kindOfWord_isWord ((c :: rest).takeWhile continuesName)
    refine ⟨fun no => ?_, fun no => ?_, fun no => ?_⟩ <;> (rw [no] at word; cases word)
  split at h
  · rename_i slash
    obtain ⟨rfl, length⟩ := tokenOr_eq_ok h
    exact ⟨nofun, nofun, fun _ => ⟨beq_iff_eq.mp (Bool.and_eq_true_iff.mp slash).1, length⟩⟩
  · unfold scanSign at h
    split at h
    · rename_i found
      cases h
      obtain ⟨noString, noNumber, noRegexp⟩ := ofSign _ (List.mem_of_find?_eq_some found)
      exact ⟨fun yes => absurd yes noString, fun yes => absurd yes noNumber,
        fun yes => absurd yes noRegexp⟩
    · cases h

/-- **What a token keeps** of its source gives the source back. -/
theorem scan_keeps {regexpAllowed : Bool} {c : CodePoint} {rest : Text} {kind : TokenKind}
    {n : Nat} (h : scan regexpAllowed c rest = .ok (.token kind n)) (line : Int) (column : Nat)
    (newlineBefore : Bool) :
    Token.source ⟨kind, keptText kind ((c :: rest).take n), line, column, newlineBefore⟩
      = (c :: rest).take n := by
  unfold Token.source keptText
  by_cases template : kind = .template
  · obtain ⟨rfl, length⟩ := (scan_kind h).2 template
    obtain ⟨m, hm, rfl⟩ := Option.map_eq_some_iff.mp length
    obtain ⟨-, last⟩ := Enclosure.recurs_measure hm
    obtain ⟨body, same⟩ := List.getLast?_eq_some_iff.mp last
    rw [if_pos template, if_pos template, List.take_succ_cons, List.drop_one, List.tail_cons, same,
      List.dropLast_concat]
    rfl
  · rw [if_neg template, if_neg template]

/-! ## Gaps -/

/-- What is found at an offset starts there, and at no smaller one. -/
theorem Text.findFrom_eq_some {needle : Text} {base n : Nat} {t : Text}
    (h : Text.findFrom needle base t = some n) :
    ∃ k, n = base + k ∧ needle <+: t.drop k ∧ ∀ j < k, ¬ needle <+: t.drop j := by
  induction t generalizing base with
  | nil =>
    unfold Text.findFrom at h
    split at h
    · rename_i empty
      cases h
      rw [List.isEmpty_iff.mp empty]
      exact ⟨0, rfl, List.nil_prefix, fun j hj => absurd hj (Nat.not_lt_zero j)⟩
    · cases h
  | cons c rest ih =>
    unfold Text.findFrom at h
    split at h
    · rename_i here
      cases h
      exact ⟨0, rfl, List.isPrefixOf_iff_prefix.mp here, fun j hj => absurd hj (Nat.not_lt_zero j)⟩
    · rename_i notHere
      obtain ⟨k, rfl, there, first⟩ := ih h
      refine ⟨k + 1, by omega, there, fun j hj => ?_⟩
      cases j with
      | zero => exact fun here => notHere (List.isPrefixOf_iff_prefix.mpr here)
      | succ j => exact first j (Nat.lt_of_succ_lt_succ hj)

/-- A text **is a gap** before what follows it: blanks, line ends and complete comments.
A comment to the end of a line goes up to a line end, or the end of the text; another
one ends at the first mark that closes it. -/
inductive Text.IsGap : Text → Text → Prop
  | nil (following : Text) : IsGap [] following
  | blank {c : CodePoint} {gap following : Text} (h : isSpace c = true ∨ isLineEnd c = true)
    (more : IsGap gap following) : IsGap (c :: gap) following
  | lineComment {body gap following : Text} (inLine : ∀ c ∈ body, isLineEnd c = false)
    (ends : ∀ c, (gap ++ following).head? = some c → isLineEnd c = true)
    (more : IsGap gap following) : IsGap ("//" ++ body ++ gap) following
  | blockComment {body gap following : Text}
    (first : ∀ j < body.length, ¬ ("*/" : Text) <+: (body ++ "*/").drop j)
    (more : IsGap gap following) : IsGap ("/*" ++ body ++ "*/" ++ gap) following

/-- Two gaps in a row are a gap. -/
theorem Text.IsGap.append {gap gap' following : Text} (h : IsGap gap (gap' ++ following))
    (h' : IsGap gap' following) : IsGap (gap ++ gap') following := by
  generalize hall : gap' ++ following = all at h
  induction h with
  | nil => exact h'
  | blank hc _ ih => exact .blank hc (ih hall)
  | @lineComment body gap _ inLine ends _ ih =>
    subst hall
    rw [List.append_assoc _ gap]
    exact .lineComment inLine (by rwa [List.append_assoc]) (ih rfl)
  | @blockComment body gap _ first _ ih =>
    subst hall
    rw [List.append_assoc _ gap]
    exact .blockComment first (ih rfl)

/-- What goes up to the first mark that closes a comment. -/
theorem isGap_blockComment {rest : Text} {n : Nat} (h : Text.find? rest "*/" = some n) :
    n + 2 ≤ rest.length
      ∧ Text.IsGap ("/*" ++ rest.take (n + 2)) (rest.drop (n + 2)) := by
  obtain ⟨k, hk, ⟨after, there⟩, first⟩ := Text.findFrom_eq_some h
  rw [Nat.zero_add] at hk
  subst hk
  have room : n + 2 ≤ rest.length := by
    have := congrArg List.length there
    rw [List.length_append, List.length_drop] at this
    have two : ("*/" : Text).length = 2 := rfl
    omega
  have taken : rest.take (n + 2) = rest.take n ++ "*/" := by
    rw [List.take_add, ← there]
    rfl
  refine ⟨room, ?_⟩
  rw [taken, ← List.append_assoc, ← List.append_nil (_ ++ _)]
  refine .blockComment (fun j hj here => ?_) (.nil _)
  rw [List.length_take] at hj
  refine first j (by omega) (here.trans ?_)
  rw [← taken, List.drop_take]
  exact List.take_prefix _ _

/-- What goes up to the end of a line. -/
theorem isGap_lineComment (rest : Text) :
    Text.IsGap ("//" ++ rest.takeWhile (fun c => !isLineEnd c))
      (rest.dropWhile (fun c => !isLineEnd c)) := by
  rw [← List.append_nil (_ ++ _)]
  refine .lineComment (fun c hc => ?_) (fun c hc => ?_) (.nil _)
  · have all := List.all_takeWhile (l := rest) (p := fun c => !isLineEnd c)
    simpa using List.all_eq_true.mp all c hc
  · have first := List.head?_dropWhile_not (fun c => !isLineEnd c) rest
    rw [List.nil_append] at hc
    rw [hc] at first
    simpa using first

/-- **A scan of a gap** measures a gap. -/
theorem scan_isGap {regexpAllowed : Bool} {c : CodePoint} {rest : Text} {n : Nat}
    (h : scan regexpAllowed c rest = .ok (.gap n)) :
    0 < n ∧ n ≤ rest.length + 1
      ∧ Text.IsGap ((c :: rest).take n) ((c :: rest).drop n) := by
  unfold scan at h
  dsimp only at h
  split at h
  · rename_i blank
    cases h
    exact ⟨Nat.one_pos, Nat.le_add_left 1 _, .blank (Bool.or_eq_true_iff.mp blank).symm (.nil _)⟩
  split at h
  · rename_i line
    obtain ⟨slash, slash'⟩ := Bool.and_eq_true_iff.mp line
    cases beq_iff_eq.mp slash
    cases rest with
    | nil => cases slash'
    | cons d rest =>
      cases beq_iff_eq.mp (show (d == ('/' : CodePoint)) = true from slash')
      cases h
      have length : countWhile (fun c => !isLineEnd c) ('/' :: '/' :: rest)
          = (rest.takeWhile fun c => !isLineEnd c).length + 2 := rfl
      have le := countWhile_le (fun c => !isLineEnd c) rest
      rw [length]
      refine ⟨by omega, Nat.add_le_add_right le 2, ?_⟩
      rw [List.take_succ_cons, List.take_succ_cons, List.drop_succ_cons, List.drop_succ_cons,
        ← List.prefix_iff_eq_take.mp (List.takeWhile_prefix _)]
      have dropped : ((rest.takeWhile fun c => !isLineEnd c)
            ++ rest.dropWhile fun c => !isLineEnd c).drop
          (rest.takeWhile fun c => !isLineEnd c).length = rest.dropWhile fun c => !isLineEnd c :=
        List.drop_left
      rw [List.takeWhile_append_dropWhile] at dropped
      rw [dropped]
      exact isGap_lineComment rest
  split at h
  · rename_i block
    obtain ⟨slash, star⟩ := Bool.and_eq_true_iff.mp block
    cases beq_iff_eq.mp slash
    cases rest with
    | nil => cases star
    | cons d rest =>
      cases beq_iff_eq.mp (show (d == ('*' : CodePoint)) = true from star)
      split at h
      · rename_i k found
        cases h
        obtain ⟨room, gap⟩ := isGap_blockComment (show Text.find? rest "*/" = some k from found)
        exact ⟨by omega, by rw [List.length_cons]; omega, gap⟩
      · cases h
  · exact absurd h (scanToken_ne_gap regexpAllowed c rest n)

end Scriptlet
