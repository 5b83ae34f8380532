import Scriptlet.Proofs.Printing
import Scriptlet.Proofs.Readback.Datum
import Scriptlet.Proofs.Relexing

/-!
# Cutting displayed data into tokens

What is displayed of data is cut into tokens as it was put together: brackets, commas,
colons, words, numerals and strings, with a space here and there. A slash would be read
differently depending on what stands before it, but no token of data starts with one.

Words and numerals go on as far as they can. In displayed data a space, a comma, a colon or
a closing parenthesis comes after every part, and none of these belongs to either.
-/

namespace Scriptlet

/-! ## What comes after data -/

/-- A text **ends** data in front of it: a space, a comma, a colon or a closing parenthesis
comes first. -/
def Text.Ends (u : Text) : Prop :=
  ∃ c rest, u = c :: rest ∧ c ∈ (" ,:)" : Text)

namespace Text.Ends

variable {u : Text}

theorem cons {c : CodePoint} (h : c ∈ (" ,:)" : Text)) (rest : Text) : Text.Ends (c :: rest) :=
  ⟨c, rest, rfl, h⟩

/-- What none of the four satisfies, a text that ends data does not start with. -/
theorem headIs_eq_false (h : u.Ends) {p : CodePoint → Bool} (none : ∀ c ∈ (" ,:)" : Text), p c = false) :
    headIs p u = false := by
  obtain ⟨c, rest, rfl, hc⟩ := h
  exact none c hc

theorem takeWhile_eq_nil (h : u.Ends) {p : CodePoint → Bool}
    (none : ∀ c ∈ (" ,:)" : Text), p c = false) : u.takeWhile p = [] := by
  obtain ⟨c, rest, rfl, hc⟩ := h
  exact List.takeWhile_cons_of_neg (by rw [none c hc]; exact nofun)

/-- What all code points of a text satisfy, and none of the four, holds up to its end. -/
theorem takeWhile_append_eq (h : u.Ends) {p : CodePoint → Bool} {t : Text} (all : ∀ c ∈ t, p c = true)
    (none : ∀ c ∈ (" ,:)" : Text), p c = false) : (t ++ u).takeWhile p = t := by
  rw [List.takeWhile_append_of_pos all, h.takeWhile_eq_nil none, List.append_nil]

end Text.Ends

/-! ## Signs -/

/-- A sign that is found by looking only so far ahead is found. -/
theorem scanSign_ahead {ahead sign : Text} {kind : TokenKind}
    (found : signs.find? (fun entry => (entry.1.take ahead.length).isPrefixOf ahead)
      = some (sign, kind)) (starts : sign <+: ahead) (u : Text) :
    scanSign (ahead ++ u) = .ok (.token kind sign.length) := by
  have same : signs.find? (fun entry => entry.1.isPrefixOf (ahead ++ u)) = some (sign, kind) := by
    obtain ⟨-, before, after, split, earlier⟩ := List.find?_eq_some_iff_append.mp found
    refine List.find?_eq_some_iff_append.mpr ⟨?_, before, after, split, fun entry hentry => ?_⟩
    · exact List.isPrefixOf_iff_prefix.mpr (starts.trans (List.prefix_append ahead u))
    · have no := earlier entry hentry
      rw [Bool.not_eq_true', Bool.eq_false_iff] at no ⊢
      refine fun yes => no (List.isPrefixOf_iff_prefix.mpr ?_)
      exact List.prefix_of_prefix_length_le
        ((List.take_prefix _ _).trans (List.isPrefixOf_iff_prefix.mp yes))
        (List.prefix_append ahead u) (List.length_take_le _ _)
  unfold scanSign
  rw [same]

/-- The signs of data that are a single code point, with which no other sign starts. -/
theorem scan_mark {c : CodePoint} {kind : TokenKind} (h : (c, kind) ∈ ([('(' , .leftParen),
      (')', .rightParen), ('[', .leftBracket), (']', .rightBracket), (openBrace, .leftBrace),
      (closeBrace, .rightBrace), (',', .comma), (':', .colon)] : List (CodePoint × TokenKind)))
    (regexpAllowed : Bool) (u : Text) : scan regexpAllowed c u = .ok (.token kind 1) := by
  have listed : ∀ entry ∈ ([('(' , .leftParen), (')', .rightParen), ('[', .leftBracket),
      (']', .rightBracket), (openBrace, .leftBrace), (closeBrace, .rightBrace), (',', .comma),
      (':', .colon)] : List (CodePoint × TokenKind)),
      (isBare entry.1 = true ∧ startsName entry.1 = false) ∧ signs.find? (fun sign =>
        (sign.1.take [entry.1].length).isPrefixOf [entry.1]) = some ([entry.1], entry.2) := by
    decide +kernel
  obtain ⟨⟨bare, noName⟩, found⟩ := listed _ h
  rw [scan_bare bare, noName, if_neg nofun]
  exact scanSign_ahead found (List.prefix_refl _) u

/-- The minus sign before a figure. -/
theorem scan_minus {d : CodePoint} (h : Text.isPlainDigit d = true) (regexpAllowed : Bool) (u : Text) :
    scan regexpAllowed '-' (d :: u) = .ok (.token .operator 1) := by
  have listed : ∀ d < 0x3A, Text.isPlainDigit d = true → signs.find? (fun sign =>
      (sign.1.take [('-' : CodePoint), d].length).isPrefixOf [('-' : CodePoint), d])
        = some ([('-' : CodePoint)], .operator) := by decide +kernel
  have small : d ≤ 0x39 := of_decide_eq_true (Bool.and_eq_true_iff.mp h).2
  rw [scan_bare (by decide +kernel), if_neg (by decide +kernel)]
  exact scanSign_ahead (listed d (Nat.lt_succ_of_le small) h) ⟨[d], rfl⟩ u

/-! ## Words -/

/-- What the code points of a key without quotes are to the scanner. -/
structure IsWordPart (c : CodePoint) : Prop where
  /-- It may continue a name. -/
  continues : continuesName c = true
  /-- If it may start a key, then it starts a name and nothing else. -/
  starts : Regexp.startsName c = true → startsName c = true ∧ isBare c = true

theorem isWordPart_of_plain {c : CodePoint}
    (h : (Regexp.startsName c || Text.isPlainDigit c) = true) : IsWordPart c := by
  have listed : ∀ c < 0x80, (Regexp.startsName c || Text.isPlainDigit c) = true →
      continuesName c = true
        ∧ (Regexp.startsName c = true → startsName c = true ∧ isBare c = true) := by decide +kernel
  have small : c < 0x80 := by
    simp only [Regexp.startsName, isPlainLetter, Text.isPlainDigit, Bool.or_eq_true,
      Bool.and_eq_true, decide_eq_true_eq, beq_iff_eq] at h
    rcases h with (((⟨-, h⟩ | ⟨-, h⟩) | rfl) | rfl) | ⟨-, h⟩
    all_goals first | exact Nat.lt_of_le_of_lt h (by decide) | decide
  obtain ⟨continues, starts⟩ := listed c small h
  exact ⟨continues, starts⟩

/-- **A key without quotes is scanned as one word**, before what ends it. -/
theorem scan_plainKey {key u : Text} (h : isPlainKey key = true) (hu : u.Ends) :
    ∃ c rest, key = c :: rest ∧ ∀ regexpAllowed,
      scan regexpAllowed c (rest ++ u) = .ok (.token (kindOfWord key) key.length) := by
  cases key with
  | nil => cases h
  | cons c rest =>
    refine ⟨c, rest, rfl, fun regexpAllowed => ?_⟩
    obtain ⟨first, others⟩ := Bool.and_eq_true_iff.mp h
    have part : IsWordPart c := isWordPart_of_plain (by rw [first]; rfl)
    have parts : ∀ d ∈ c :: rest, continuesName d = true := by
      refine List.forall_mem_cons.mpr ⟨part.continues, fun d hd => ?_⟩
      exact (isWordPart_of_plain (List.all_eq_true.mp others d hd)).continues
    have word : (c :: rest ++ u).takeWhile continuesName = c :: rest :=
      hu.takeWhile_append_eq parts (by decide +kernel)
    obtain ⟨name, bare⟩ := part.starts first
    rw [scan_bare bare, if_pos name, ← List.cons_append, word]

/-! ## Numerals -/

/-- Figures before what ends data are measured as a numeral. -/
theorem numberLength?_figures {t u : Text} (ht : t.OfFigures) (some : t ≠ []) (hu : u.Ends) :
    numberLength? (t ++ u) = Option.some t.length := by
  have digits : ∀ c ∈ t, Text.isDigit c = true := fun c hc => by
    rw [Text.isDigit, ht.isDecimal c hc, Bool.true_or]
  have noRadix : radixOf? (t ++ u) = none := by
    obtain ⟨d, rest, rfl, hd⟩ := hu
    cases t with
    | nil => exact absurd rfl some
    | cons z more =>
      cases more with
      | nil =>
        have none : radixOfLetter? d = none :=
          (show ∀ c ∈ (" ,:)" : Text), radixOfLetter? c = none by decide) d hd
        exact ite_eq_right_iff.mpr fun _ => none
      | cons letter more =>
        have none := (isFigure_of_isPlainDigit (ht letter (by simp))).noRadix
        exact ite_eq_right_iff.mpr fun _ => none
  have whole : countWhile Text.isDigit (t ++ u) = t.length := by
    rw [countWhile, hu.takeWhile_append_eq digits (by decide +kernel)]
  have fraction : fractionLength u = 0 :=
    if_neg (by rw [hu.headIs_eq_false (by decide)]; exact Bool.false_ne_true)
  have exponent : exponentLength u = 0 :=
    if_neg (by rw [hu.headIs_eq_false (by decide)]; exact Bool.false_ne_true)
  have length : decimalLength (t ++ u) = t.length := by
    rw [decimalLength_eq, whole, List.drop_left, fraction, List.drop_zero, exponent,
      Nat.add_zero]
  rw [numberLength?_eq, numeralLength?_eq, noRadix]
  dsimp only
  rw [length, Option.bind_some, List.drop_left, if_neg]
  rw [hu.headIs_eq_false (by decide +kernel)]
  exact Bool.false_ne_true

/-- **Figures are scanned as one token**, before what ends data. -/
theorem scan_figures {c : CodePoint} {rest u : Text} (h : Text.OfFigures (c :: rest)) (hu : u.Ends)
    (regexpAllowed : Bool) :
    scan regexpAllowed c (rest ++ u) = .ok (.token .number (rest.length + 1)) := by
  have length := numberLength?_figures h (List.cons_ne_nil c rest) hu
  have listed : ∀ c < 0x3A, Text.isPlainDigit c = true → ((isLineEnd c || isSpace c) = false
      ∧ (c == '/') = false) ∧ (c == doubleQuote || c == singleQuote) = false
        ∧ (c == backtick) = false := by decide +kernel
  have plain := h c List.mem_cons_self
  have small : c ≤ 0x39 := of_decide_eq_true (Bool.and_eq_true_iff.mp plain).2
  obtain ⟨⟨blank, slash⟩, quote, tick⟩ := listed c (Nat.lt_succ_of_le small) plain
  have digit : Text.isDigit c = true := by
    rw [Text.isDigit, h.isDecimal c List.mem_cons_self, Bool.true_or]
  have noGap : startsGap c (rest ++ u) = false := by
    rw [startsGap, blank, slash]
    rfl
  rw [List.cons_append] at length
  rw [scan_of_startsGap_eq_false noGap, scanToken]
  dsimp only
  rw [if_neg (by rw [quote]; exact Bool.false_ne_true),
    if_neg (by rw [tick]; exact Bool.false_ne_true),
    if_pos (by rw [digit, Bool.true_or]), length]
  rfl

/-! ## Tokens -/

/-- A text **is cut into** tokens, wherever they stand and whether or not a slash before it
would divide. The last of them is the end of the text. -/
def Text.IsCutInto (t : Text) (tokens : List Token) : Prop :=
  ∀ allowed, ∃ pieces after, Cuts allowed t pieces after []
    ∧ (contents false pieces).map (fun content => (tokenOf content).unplaced) = tokens

namespace Text.IsCutInto

variable {t u : Text} {tokens : List Token}

theorem nil : IsCutInto [] [TokenKind.endOfText.mark] :=
  fun allowed => ⟨[], allowed, .done allowed [], rfl⟩

/-- A space is passed over. -/
theorem space (h : u.IsCutInto tokens) : IsCutInto (' '.toNat :: u) tokens := by
  intro allowed
  obtain ⟨pieces, after, cuts, same⟩ := h allowed
  exact ⟨_, after, Cuts.lead cuts false, (congrArg _ (contents_lead false pieces)).trans same⟩

/-- **A token is cut off** from what follows it. -/
theorem token {c : CodePoint} {rest : Text} {kind : TokenKind}
    (found : ∀ allowed, scan allowed c (rest ++ u) = .ok (.token kind (rest.length + 1)))
    (noTemplate : kind ≠ .template) (h : u.IsCutInto tokens) :
    IsCutInto (c :: rest ++ u) (.plain kind (c :: rest) :: tokens) := by
  intro allowed
  rw [List.cons_append]
  obtain ⟨pieces, after, cuts, same⟩ := h (!kind.endsValue)
  have source : (c :: (rest ++ u)).take (rest.length + 1) = c :: rest :=
    congrArg (c :: ·) (List.take_left' rfl)
  have left : (c :: (rest ++ u)).drop (rest.length + 1) = u := List.drop_left' rfl
  refine ⟨_, after, .token (found allowed) (left.symm ▸ cuts), ?_⟩
  rw [contents, List.map_cons, same, source, keptText, if_neg noTemplate]
  rfl

/-- A token of one code point is cut off. -/
theorem single {c : CodePoint} {kind : TokenKind}
    (found : ∀ allowed, scan allowed c u = .ok (.token kind 1)) (noTemplate : kind ≠ .template)
    (h : u.IsCutInto tokens) : IsCutInto (c :: u) (.plain kind [c] :: tokens) := by
  have found' (allowed : Bool) :
      scan allowed c ([] ++ u) = .ok (.token kind (([] : Text).length + 1)) := found allowed
  exact token found' noTemplate h

/-- A sign of data is cut off. -/
theorem mark {c : CodePoint} {kind : TokenKind}
    (listed : (c, kind) ∈ ([('(' , .leftParen), (')', .rightParen), ('[', .leftBracket),
      (']', .rightBracket), (openBrace, .leftBrace), (closeBrace, .rightBrace), (',', .comma),
      (':', .colon)] : List (CodePoint × TokenKind)))
    (spelled : kind.mark = .plain kind [c]) (noTemplate : kind ≠ .template) (h : u.IsCutInto tokens) :
    IsCutInto (c :: u) (kind.mark :: tokens) := by
  rw [spelled]
  exact single (fun allowed => scan_mark listed allowed u) noTemplate h

/-- **A text that is cut into tokens has these tokens.** -/
theorem tokenize_eq (h : t.IsCutInto tokens) (line : Int) :
    ∃ actual, tokenize t line = .ok actual ∧ actual.map Token.unplaced = tokens := by
  obtain ⟨pieces, after, cuts, same⟩ := h true
  obtain ⟨actual, found, said⟩ := cuts.tokenize_contents line
  refine ⟨actual, found, ?_⟩
  rw [← same, ← said, List.map_map]
  rfl

end Text.IsCutInto

/-- A text **is cut as** some tokens wherever it stands before what ends data. -/
def Text.IsCutAs (t : Text) (tokens : List Token) : Prop :=
  ∀ u following, u.Ends → u.IsCutInto following → (t ++ u).IsCutInto (tokens ++ following)

/-- What is between two signs is cut as if they were not there. -/
theorem isCutInto_separated {texts : List Text} {parts : List (List Token)}
    (each : List.Forall₂ Text.IsCutAs texts parts) {u : Text} {following : List Token}
    (hu : u.Ends) (h : u.IsCutInto following) :
    (Text.join ", " texts ++ u).IsCutInto (separated TokenKind.comma.mark parts ++ following) := by
  induction each with
  | nil => exact h
  | @cons t part texts parts first others ih =>
    cases others with
    | nil =>
      rw [separated_singleton]
      exact first u following hu h
    | @cons t' part' texts parts =>
      have more : Text.IsCutInto (", " ++ (Text.join ", " (t' :: texts) ++ u))
          (TokenKind.comma.mark :: (separated TokenKind.comma.mark (part' :: parts) ++ following)) :=
        .mark (by decide) rfl nofun (.space ih)
      rw [Text.join_cons_cons, separated_cons_cons, List.append_assoc, List.append_assoc,
        List.append_assoc, List.cons_append]
      exact first _ _ (.cons (by decide) _) more

/-- **What is displayed between two signs**, with commas between the parts. -/
theorem isCutAs_displayItems {opener closer : CodePoint} {opening closing : TokenKind}
    {texts : List Text} {parts : List (List Token)}
    (opens : ∀ {u : Text} {tokens : List Token}, u.IsCutInto tokens →
      Text.IsCutInto (opener :: u) (opening.mark :: tokens))
    (closes : ∀ {u : Text} {tokens : List Token}, u.IsCutInto tokens →
      Text.IsCutInto (closer :: u) (closing.mark :: tokens))
    (each : List.Forall₂ Text.IsCutAs texts parts) :
    (displayItems opener closer texts).IsCutAs
      (between opening closing (separated TokenKind.comma.mark parts)) := by
  intro u following _ h
  rw [between_append, displayItems]
  cases each with
  | nil => exact opens (closes h)
  | @cons t part texts parts first others =>
    have inner := isCutInto_separated (.cons first others) (.cons (by decide) (closer :: u))
      (.space (closes h))
    rw [if_neg nofun]
    have source : [opener] ++ " " ++ Text.join ", " (t :: texts) ++ " " ++ [closer] ++ u
        = opener :: ' '.toNat :: (Text.join ", " (t :: texts) ++ ' '.toNat :: closer :: u) := by
      simp [Text.ofString]
    rw [source]
    exact opens (.space inner)

/-! ## The tokens of data -/

/-- The token of a key. -/
def keyToken (key : Text) : Token :=
  if isPlainKey key then .plain (kindOfWord key) key else .plain .string key.quoted

/-- The tokens of an integer: its figures, behind a sign if it is negative. -/
def intTokens (n : Int) : List Token :=
  if 0 ≤ n then [.plain .number (Text.ofNat n.natAbs)]
  else [.plain .operator "-", .plain .number (Text.ofNat n.natAbs)]

/-- **The tokens of data.** -/
def Datum.tokens : Datum → List Token
  | undefined => [.plain .identifier "undefined"]
  | null => [TokenKind.nullWord.mark]
  | bool b => [(if b then TokenKind.trueWord else .falseWord).mark]
  | int n => intTokens n
  | text t => [.plain .string t.quoted]
  | list items => between .leftBracket .rightBracket
    (separated TokenKind.comma.mark (items.map fun d => d.tokens))
  | object entries => between .leftBrace .rightBrace (separated TokenKind.comma.mark
    (entries.map fun entry => keyToken entry.1 :: TokenKind.colon.mark :: entry.2.tokens))
termination_by d => sizeOf d
decreasing_by
  · exact sizeOf_lt_list ‹_›
  · exact sizeOf_lt_object ‹_›

theorem isCutAs_plainKey {key : Text} (h : isPlainKey key = true) :
    key.IsCutAs [.plain (kindOfWord key) key] := by
  intro u following hu more
  obtain ⟨c, rest, rfl, found⟩ := scan_plainKey h hu
  refine .token found (fun template => ?_) more
  have word := kindOfWord_isWord (c :: rest)
  rw [template] at word
  cases word

theorem isCutAs_quoted (t : Text) : t.quoted.IsCutAs [.plain .string t.quoted] := by
  intro u following _ more
  obtain ⟨rest, same, -⟩ := scan_quoted t u true
  have found (allowed : Bool) :
      scan allowed t.quoteFor (rest ++ u) = .ok (.token .string (rest.length + 1)) := by
    obtain ⟨rest', same', found⟩ := scan_quoted t u allowed
    obtain rfl : rest' = rest := (List.cons.inj (same'.symm.trans same)).2
    rw [found, same, List.length_cons]
  rw [same]
  exact .token found nofun more

theorem isCutAs_key (key : Text) : (displayKey key).IsCutAs [keyToken key] := by
  unfold displayKey keyToken
  split
  · rename_i plain
    exact isCutAs_plainKey plain
  · exact isCutAs_quoted key

theorem isCutAs_int (n : Int) : (Text.ofInt n).IsCutAs (intTokens n) := by
  intro u following hu more
  have figures := Text.ofFigures_ofNat n.natAbs
  rw [Text.ofInt_eq, intTokens]
  generalize written : Text.ofNat n.natAbs = digits at figures ⊢
  cases digits with
  | nil => exact absurd written (Text.ofNat_ne_nil _)
  | cons c rest =>
    have number : Text.IsCutInto (c :: rest ++ u) (.plain .number (c :: rest) :: following) :=
      .token (scan_figures figures hu) nofun more
    split
    · exact number
    · exact .single (fun allowed => scan_minus (figures c List.mem_cons_self) allowed (rest ++ u))
        nofun number

/-- **Displayed data is cut into its tokens.** -/
theorem Datum.isCutAs (d : Datum) : d.spelling.IsCutAs d.tokens := by
  have rows {α : Type} {as : List α} {text : α → Text} {parts : α → List Token}
      (h : ∀ a ∈ as, (text a).IsCutAs (parts a)) :
      List.Forall₂ Text.IsCutAs (as.map text) (as.map parts) := by
    rw [List.forall₂_map_left_iff, List.forall₂_map_right_iff, List.forall₂_same]
    exact h
  induction d with
  | undefined =>
    rw [spelling, tokens]
    exact isCutAs_plainKey (by decide)
  | null =>
    rw [spelling, tokens]
    exact isCutAs_plainKey (by decide)
  | bool b =>
    rw [spelling, tokens]
    cases b
    · exact isCutAs_plainKey (by decide)
    · exact isCutAs_plainKey (by decide)
  | int n =>
    rw [spelling, tokens]
    exact isCutAs_int n
  | text t =>
    rw [spelling, tokens]
    exact isCutAs_quoted t
  | list items ih =>
    rw [spelling, tokens]
    exact isCutAs_displayItems (.mark (by decide) rfl (by decide))
      (.mark (by decide) rfl (by decide)) (rows ih)
  | object entries ih =>
    rw [spelling, tokens]
    refine isCutAs_displayItems (.mark (by decide) rfl (by decide))
      (.mark (by decide) rfl (by decide)) (rows ?_)
    intro entry hentry u following hu more
    have value := ih entry hentry u following hu more
    have colon : Text.IsCutInto (": " ++ (entry.2.spelling ++ u))
        (TokenKind.colon.mark :: (entry.2.tokens ++ following)) :=
      .mark (by decide) rfl (by decide) (.space value)
    rw [List.append_assoc, List.append_assoc]
    exact isCutAs_key entry.1 _ _ (.cons (by decide) _) colon

/-- Displayed data in parentheses is cut into its tokens. -/
theorem Datum.isCutInto (d : Datum) :
    ("(" ++ d.spelling ++ ")" : Text).IsCutInto
      (between .leftParen .rightParen d.tokens ++ [TokenKind.endOfText.mark]) := by
  have close : Text.IsCutInto ")" [TokenKind.rightParen.mark, TokenKind.endOfText.mark] :=
    .mark (by decide) rfl nofun .nil
  rw [between_append, List.append_assoc]
  exact .mark (by decide) rfl nofun (d.isCutAs ")" _ (.cons (by decide) []) close)

end Scriptlet
