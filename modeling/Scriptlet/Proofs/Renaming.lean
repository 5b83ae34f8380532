import Scriptlet.Proofs.Layout
import Scriptlet.Proofs.Relexing

/-!
# Replacing one word by another

A word is cut off a text as far as it goes, whatever it is. What is in front of it is cut without
looking into it: the scanner looks ahead, but no further than to the first code point of a word, and
that is no different for one word than for another. What is behind it is cut by itself. So if one word
takes the place of another, then all other tokens stay what they are, with one proviso. Whether a
slash divides or opens a regular expression is decided by the kind of the token in front of it, and
for this a keyword is not like a name. That a dot in front of the word makes it the name of a property,
behind which a value has ended, does not enter into it.
-/

namespace Scriptlet

/-! ## Words -/

/-- Whether a text **is a word**: all of it is scanned as an identifier, a keyword or a reserved
word. -/
def Text.isWord : Text → Bool
  | [] => false
  | c :: rest =>
    (scan true c rest).toOption == some (.token (kindOfWord (c :: rest)) (c :: rest).length)

/-- A text **starts with a word** if its first code point starts a name and is no digit. -/
def Text.StartsWord (u : Text) : Prop :=
  ∃ c rest, u = c :: rest ∧ startsName c = true ∧ Text.isDigit c = false

theorem headIs_cons (p : CodePoint → Bool) (c : CodePoint) (rest : Text) :
    headIs p (c :: rest) = p c :=
  rfl

/-- Marks that **start no name**: blanks, ends of lines, quotes, and those that signs are made of. -/
def nameless : List CodePoint :=
  let blanks : List CodePoint := ['\n', '\r', 0x2028, 0x2029, ' ', '\t', 0x0B, 0x0C, 0xA0, 0xFEFF]
  blanks ++ [doubleQuote, singleQuote, backtick] ++ signs.flatMap fun sign => sign.1

theorem startsName_of_mem_nameless : ∀ mark ∈ nameless, startsName mark = false := by
  decide +kernel

/-- What starts a name is none of them. -/
theorem beq_eq_false_of_startsName {c mark : CodePoint} (name : startsName c = true)
    (other : mark ∈ nameless) : (c == mark) = false := by
  rw [beq_eq_false_iff_ne]
  rintro rfl
  rw [startsName_of_mem_nameless c other] at name
  cases name

/-- What starts a name and is no digit is scanned as nothing else. -/
theorem isBare_of_startsName {c : CodePoint} (name : startsName c = true)
    (noDigit : Text.isDigit c = false) : isBare c = true := by
  have none (mark : CodePoint) (other : mark ∈ nameless) : (c == mark) = false :=
    beq_eq_false_of_startsName name other
  simp only [isBare, isLineEnd, isSpace, noDigit, none '\n' (by decide), none '\r' (by decide),
    none 0x2028 (by decide), none 0x2029 (by decide), none ' ' (by decide), none '\t' (by decide),
    none 0x0B (by decide), none 0x0C (by decide), none 0xA0 (by decide), none 0xFEFF (by decide),
    none '/' (by decide), none doubleQuote (by decide), none singleQuote (by decide),
    none backtick (by decide), none '.' (by decide), Bool.or_self, Bool.not_false]

/-- **What is scanned as a word** starts like one and goes as far as names do. -/
theorem scan_isWord {allowed : Bool} {c : CodePoint} {rest : Text} {kind : TokenKind} {n : Nat}
    (h : scan allowed c rest = .ok (.token kind n)) (word : kind.isWord = true) :
    startsName c = true ∧ Text.isDigit c = false
      ∧ kind = kindOfWord ((c :: rest).takeWhile continuesName)
      ∧ n = countWhile continuesName (c :: rest) := by
  have ofSign : ∀ sign ∈ signs, sign.2.isWord = false := by decide
  rw [scan_of_startsGap_eq_false (startsGap_eq_false_of_scan h)] at h
  unfold scanToken at h
  dsimp only at h
  split at h
  · obtain ⟨rfl, -⟩ := tokenOr_eq_ok h
    cases word
  split at h
  · obtain ⟨rfl, -⟩ := tokenOr_eq_ok h
    cases word
  split at h
  · obtain ⟨rfl, -⟩ := tokenOr_eq_ok h
    cases word
  rename_i noNumber
  split at h
  · rename_i name
    obtain ⟨rfl, rfl⟩ := Scan.token.inj (Except.ok.inj h)
    exact ⟨name, (Bool.or_eq_false_iff.mp (Bool.eq_false_iff.mpr noNumber)).1, rfl, rfl⟩
  split at h
  · obtain ⟨rfl, -⟩ := tokenOr_eq_ok h
    cases word
  · unfold scanSign at h
    split at h
    · rename_i found
      cases h
      rw [ofSign _ (List.mem_of_find?_eq_some found)] at word
      cases word
    · cases h

/-- A word starts with one, and all of its code points continue a name. -/
theorem Text.startsWord_of_isWord {word : Text} (h : word.isWord = true) :
    (∀ u, StartsWord (word ++ u)) ∧ ∀ c ∈ word, continuesName c = true := by
  cases word with
  | nil => cases h
  | cons c rest =>
    have scanned := Except.eq_ok_of_toOption (beq_iff_eq.mp h)
    obtain ⟨name, noDigit, -, length⟩ := scan_isWord scanned (kindOfWord_isWord _)
    refine ⟨fun u => ⟨c, rest ++ u, rfl, name, noDigit⟩, ?_⟩
    have all := (List.takeWhile_prefix continuesName (l := c :: rest)).eq_of_length length.symm
    rw [← all]
    exact List.all_eq_true.mp List.all_takeWhile

/-- **A word is scanned** in front of what does not continue it. -/
theorem scan_word {c : CodePoint} {rest back : Text} (h : Text.isWord (c :: rest) = true)
    (ends : headIs continuesName back = false) (allowed : Bool) :
    scan allowed c (rest ++ back)
      = .ok (.token (kindOfWord (c :: rest)) (c :: rest).length) := by
  obtain ⟨starts, continues⟩ := Text.startsWord_of_isWord h
  obtain ⟨_, _, same, name, noDigit⟩ := starts back
  cases same
  have nothing : back.takeWhile continuesName = [] := by
    cases back with
    | nil => rfl
    | cons d more =>
      rw [headIs_cons] at ends
      exact List.takeWhile_cons_of_neg (Bool.eq_false_iff.mp ends)
  rw [scan_bare (isBare_of_startsName name noDigit), if_pos name, ← List.cons_append,
    List.takeWhile_append_of_pos continues, nothing, List.append_nil]

/-! ## Looking ahead to a word -/

theorem headIs_append {p : CodePoint → Bool} {u : Text} (hu : headIs p u = false) (x : Text) :
    headIs p (x ++ u) = headIs p x := by
  cases x with
  | nil => exact hu
  | cons c rest => rfl

theorem countWhile_append {p : CodePoint → Bool} {u : Text} (hu : headIs p u = false) (x : Text) :
    countWhile p (x ++ u) = countWhile p x := by
  have := countWhile_take_append (countWhile_le p x) hu
  rwa [List.take_length] at this

/-- What leads a text and ends in front of what follows is the same whatever follows. -/
theorem takeWhile_append_congr {p : CodePoint → Bool} {x u : Text}
    (h : countWhile p (x ++ u) < x.length) (u' : Text) :
    (x ++ u').takeWhile p = (x ++ u).takeWhile p := by
  have inside : (x.takeWhile p).length ≠ x.length := fun all => by
    rw [countWhile, List.takeWhile_append, if_pos all, List.length_append] at h
    omega
  rw [List.takeWhile_append, List.takeWhile_append, if_neg inside, if_neg inside]

/-- What leads a text does not end directly in front of what goes on with it. -/
theorem countWhile_lt_of_headIs {p : CodePoint → Bool} {x u : Text} (hu : headIs p u = true)
    (h : countWhile p (x ++ u) ≤ x.length) : countWhile p (x ++ u) < x.length := by
  refine Nat.lt_of_le_of_ne h fun same => ?_
  have more : 0 < (u.takeWhile p).length := by
    cases u with
    | nil => cases hu
    | cons c rest =>
      rw [headIs_cons] at hu
      rw [List.takeWhile_cons_of_pos hu]
      exact Nat.succ_pos _
  rw [countWhile, List.takeWhile_append] at same
  split at same
  · rw [List.length_append] at same
    omega
  · rename_i inside
    exact inside same

namespace Text.StartsWord

variable {u u' : Text}

theorem headIs_eq_false (hu : u.StartsWord) {p : CodePoint → Bool}
    (none : ∀ c, startsName c = true → Text.isDigit c = false → p c = false) : headIs p u = false := by
  obtain ⟨c, rest, rfl, name, noDigit⟩ := hu
  rw [headIs_cons, none c name noDigit]

theorem headIs_mark (hu : u.StartsWord) (mark : CodePoint) (other : mark ∈ nameless) :
    headIs (· == mark) u = false :=
  hu.headIs_eq_false fun _ name _ => beq_eq_false_of_startsName name other

theorem headIs_digit (hu : u.StartsWord) : headIs Text.isDigit u = false :=
  hu.headIs_eq_false fun _ _ noDigit => noDigit

theorem headIs_startsName (hu : u.StartsWord) : headIs startsName u = true := by
  obtain ⟨c, rest, rfl, name, -⟩ := hu
  rw [headIs_cons, name]

theorem headIs_continuesName (hu : u.StartsWord) : headIs continuesName u = true := by
  obtain ⟨c, rest, rfl, name, -⟩ := hu
  have letters : Text.isLetter c = true ∨ (c == '_') = true ∨ (c == '$') = true := by
    rwa [startsName, Bool.or_eq_true, Bool.or_eq_true, or_assoc] at name
  rw [headIs_cons, continuesName, Text.isAlphanumeric]
  rcases letters with letter | low | dollar
  · rw [letter]; rfl
  · rw [low, Bool.or_true]; rfl
  · rw [dollar, Bool.or_true]

theorem headIs_inLine (hu : u.StartsWord) : headIs (fun c => !isLineEnd c) u = true := by
  obtain ⟨c, rest, rfl, name, noDigit⟩ := hu
  have bare := isBare_of_startsName name noDigit
  simp only [isBare, Bool.not_eq_true', Bool.or_eq_false_iff] at bare
  obtain ⟨⟨⟨⟨⟨⟨⟨lineEnd, -⟩, -⟩, -⟩, -⟩, -⟩, -⟩, -⟩ := bare
  rw [headIs_cons, lineEnd]
  rfl

/-! ### Numerals -/

/-- An exponent that something of the text is left for does not go into a word. -/
theorem exponentLength_append (hu : u.StartsWord) (c : CodePoint) (x : Text) :
    exponentLength (c :: x ++ u) = exponentLength (c :: x) := by
  have sign : headIs (fun c => c == '+' || c == '-') u = false :=
    hu.headIs_eq_false fun c name _ => by
      rw [beq_eq_false_of_startsName name (by decide), beq_eq_false_of_startsName name (by decide)]
      rfl
  have digits (y : Text) := countWhile_append hu.headIs_digit y
  unfold exponentLength
  rw [show headIs (fun c => c == 'e' || c == 'E') (c :: x ++ u)
      = headIs (fun c => c == 'e' || c == 'E') (c :: x) from rfl,
    List.cons_append, List.drop_one, List.drop_one, List.tail_cons, List.tail_cons,
    headIs_append sign]
  dsimp only
  cases signed : headIs (fun c => c == '+' || c == '-') x with
  | false => simp only [Bool.false_eq_true, if_false, List.drop_succ_cons, List.drop_zero, digits]
  | true =>
    cases x with
    | nil => cases signed
    | cons d x =>
      simp only [if_true, List.drop_succ_cons, List.drop_zero, List.cons_append, digits]

/-- A decimal numeral that ends in front of something else is the same in front of any word. -/
theorem decimalLength_congr (hu : u.StartsWord) (hu' : u'.StartsWord) {x : Text}
    (h : decimalLength (x ++ u) < x.length) : decimalLength (x ++ u') = decimalLength (x ++ u) := by
  -- The whole part and the fraction never go into a word; only an exponent might start with one.
  have unfolded {v : Text} (hv : v.StartsWord) : decimalLength (x ++ v) =
      countWhile Text.isDigit x + fractionLength (x.drop (countWhile Text.isDigit x))
        + exponentLength ((x.drop (countWhile Text.isDigit x)).drop
            (fractionLength (x.drop (countWhile Text.isDigit x))) ++ v) := by
    have fraction := fractionLength_take_append
      (fractionLength_le (x.drop (countWhile Text.isDigit x)))
      (hv.headIs_mark '.' (by decide)) hv.headIs_digit
    rw [List.take_length] at fraction
    rw [decimalLength_eq, countWhile_append hv.headIs_digit,
      List.drop_append_of_le_length (countWhile_le _ _), fraction,
      List.drop_append_of_le_length (fractionLength_le _)]
  rw [unfolded hu] at h
  rw [unfolded hu, unfolded hu']
  cases left : (x.drop (countWhile Text.isDigit x)).drop
      (fractionLength (x.drop (countWhile Text.isDigit x))) with
  | nil =>
    have := congrArg List.length left
    rw [List.length_drop, List.length_drop, List.length_nil] at this
    omega
  | cons c rest => rw [hu.exponentLength_append, hu'.exponentLength_append]

/-- A numeral that ends in front of something else is the same in front of any word. -/
theorem numeralLength?_congr (hu : u.StartsWord) (hu' : u'.StartsWord) {x : Text} {n : Nat}
    (h : numeralLength? (x ++ u) = some n) (pos : 0 < n) (lt : n < x.length) :
    numeralLength? (x ++ u') = some n := by
  obtain ⟨z, letter, y, rfl⟩ : ∃ z letter y, x = z :: letter :: y := by
    rcases x with _ | ⟨z, _ | ⟨letter, y⟩⟩
    · cases lt
    · rw [List.length_singleton] at lt; omega
    · exact ⟨z, letter, y, rfl⟩
  rw [numeralLength?_eq] at h ⊢
  rw [show radixOf? (z :: letter :: y ++ u') = radixOf? (z :: letter :: y ++ u) from rfl]
  cases base : radixOf? (z :: letter :: y ++ u) with
  | some radix =>
    rw [base] at h
    dsimp only at h ⊢
    rw [radixLength?, show (z :: letter :: y ++ u).drop 2 = y ++ u from rfl] at h
    rw [radixLength?, show (z :: letter :: y ++ u').drop 2 = y ++ u' from rfl]
    obtain ⟨value, hvalue, length⟩ := Option.map_eq_some_iff.mp h
    have digits : (y ++ u').takeWhile Text.isAlphanumeric = (y ++ u).takeWhile Text.isAlphanumeric := by
      refine takeWhile_append_congr (u := u) ?_ u'
      have : 2 + countWhile Text.isAlphanumeric (y ++ u) = n := length
      rw [List.length_cons, List.length_cons] at lt
      omega
    rw [digits]
    exact h
  | none =>
    rw [base] at h
    cases h
    exact congrArg some (hu.decimalLength_congr hu' lt)

/-- A number that does not end in a word is the same in front of any word. -/
theorem numberLength?_congr (hu : u.StartsWord) (hu' : u'.StartsWord) {x : Text} {n : Nat}
    (h : numberLength? (x ++ u) = some n) (pos : 0 < n) (le : n ≤ x.length) :
    numberLength? (x ++ u') = some n := by
  rw [numberLength?_eq] at h ⊢
  obtain ⟨m, measured, noName⟩ := Option.bind_eq_some_iff.mp h
  split at noName
  · cases noName
  rename_i noName'
  obtain rfl := Option.some.inj noName
  -- A name may not follow, so the number ends before the word.
  have lt : m < x.length := by
    refine Nat.lt_of_le_of_ne le fun same => noName' ?_
    rw [same, List.drop_left]
    exact hu.headIs_startsName
  have behind : headIs startsName ((x ++ u').drop m) = headIs startsName ((x ++ u).drop m) := by
    rw [List.drop_append_of_le_length le, List.drop_append_of_le_length le]
    cases left : x.drop m with
    | nil =>
      have := List.drop_eq_nil_iff.mp left
      omega
    | cons c rest => rfl
  rw [hu.numeralLength?_congr hu' measured pos lt, Option.bind_some, behind, if_neg noName']

/-! ### Everything else -/

/-- What has been read of a text and reaches no further than into `x` was read of `x`. -/
theorem exists_of_append_eq {read rest x : Text} (same : x ++ u = read ++ rest)
    (le : read.length ≤ x.length) : ∃ y, x = read ++ y ∧ rest = y ++ u := by
  obtain ⟨y, rfl⟩ := List.prefix_of_prefix_length_le ⟨rest, same.symm⟩ (List.prefix_append x u) le
  rw [List.append_assoc] at same
  exact ⟨y, rfl, (List.append_cancel_left same).symm⟩

/-- What is enclosed is measured without looking further. -/
theorem measure_congr {e : Enclosure} {x : Text} {n : Nat}
    (h : Enclosure.measure [e] 0 (x ++ u) = some n) (le : n ≤ x.length) (u' : Text) :
    Enclosure.measure [e] 0 (x ++ u') = some n := by
  obtain ⟨read, rest, same, closes⟩ := Enclosure.closes_of_measure h
  have count := closes.count
  obtain ⟨y, rfl, -⟩ := exists_of_append_eq same (by omega)
  rw [List.append_assoc]
  exact closes.anywhere _

/-- A regular expression that does not end in a word is the same in front of any word. -/
theorem regexpLength?_congr (hu : u.StartsWord) {c : CodePoint} {x : Text} {n : Nat}
    (h : regexpLength? (c :: (x ++ u)) = some n) (le : n ≤ x.length + 1) (u' : Text) :
    regexpLength? (c :: (x ++ u')) = some n := by
  obtain ⟨m, body, rfl⟩ := Option.map_eq_some_iff.mp h
  rw [List.drop_one, List.tail_cons] at body
  obtain ⟨read, rest, same, rfl, -, again⟩ := regexpBodyLength?_reads body
  obtain ⟨y, rfl, rfl⟩ := exists_of_append_eq same (by omega)
  have flags (v : Text) : (c :: (read ++ y ++ v)).drop (1 + read.length) = y ++ v := by
    rw [Nat.add_comm, List.drop_succ_cons, List.append_assoc, List.drop_left]
  rw [flags, List.length_append] at le
  have same := takeWhile_append_congr
    (countWhile_lt_of_headIs (x := y) hu.headIs_continuesName (by omega)) u'
  rw [regexpLength?, List.drop_one, List.tail_cons, List.append_assoc, again, Option.map_some,
    ← List.append_assoc, flags, flags, countWhile, same]
  rfl

/-- What is found of a text, no later than where it ends, is found whatever follows. -/
theorem findFrom_congr {needle : Text} (notEmpty : needle ≠ []) {base n : Nat} {x : Text}
    (h : Text.findFrom needle base (x ++ u) = some n) (le : n + needle.length ≤ base + x.length)
    (u' : Text) : Text.findFrom needle base (x ++ u') = some n := by
  have pos := List.length_pos_iff.mpr notEmpty
  obtain ⟨k, rfl, -, -⟩ := Text.findFrom_eq_some h
  induction x generalizing base k with
  | nil => rw [List.length_nil] at le; omega
  | cons c x ih =>
    rw [List.length_cons] at le
    have here (v : Text) : needle.isPrefixOf (c :: (x ++ v)) = needle.isPrefixOf (c :: x) := by
      rw [Bool.eq_iff_iff, List.isPrefixOf_iff_prefix, List.isPrefixOf_iff_prefix]
      refine ⟨fun starts => ?_, fun starts => starts.trans (List.prefix_append (c :: x) v)⟩
      exact List.prefix_of_prefix_length_le starts (List.prefix_append (c :: x) v)
        (by rw [List.length_cons]; omega)
    rw [List.cons_append, Text.findFrom, here] at h ⊢
    split at h
    · rename_i starts
      rw [if_pos starts]
      exact h
    · rename_i other
      obtain ⟨j, same, -, -⟩ := Text.findFrom_eq_some h
      rw [if_neg other]
      rw [show base + k = base + 1 + j by omega] at h le ⊢
      exact ih j h (by omega)

/-- No sign goes on into a word. -/
theorem scanSign_append (hu : u.StartsWord) (x : Text) : scanSign (x ++ u) = scanSign x := by
  have noName : ∀ sign ∈ signs, ∀ c ∈ sign.1, startsName c = false := fun sign hsign c hc =>
    startsName_of_mem_nameless c (List.mem_append_right _ (List.mem_flatMap.mpr ⟨sign, hsign, hc⟩))
  have same : signs.find? (fun sign => sign.1.isPrefixOf (x ++ u))
      = signs.find? (fun sign => sign.1.isPrefixOf x) := by
    rw [← List.head?_filter, ← List.head?_filter]
    refine congrArg List.head? (List.filter_congr fun sign hsign => ?_)
    rw [Bool.eq_iff_iff, List.isPrefixOf_iff_prefix, List.isPrefixOf_iff_prefix]
    refine ⟨fun starts => ?_, fun starts => starts.trans (List.prefix_append x u)⟩
    rcases List.prefix_or_prefix_of_prefix starts (List.prefix_append x u) with inside | ⟨more, further⟩
    · exact inside
    · -- The sign would hold the first code point of the word.
      obtain ⟨c, rest, rfl, name, -⟩ := hu
      rw [← further] at starts
      cases more with
      | nil =>
        have whole : x = sign.1 := (List.append_nil x).symm.trans further
        exact whole ▸ List.prefix_refl x
      | cons d more =>
        obtain ⟨_, same⟩ := (List.prefix_append_right_inj x).mp starts
        obtain rfl := (List.cons.inj same).1
        have mark := noName sign hsign d (by rw [← further]; simp)
        rw [name] at mark
        cases mark
  unfold scanSign
  rw [same]

/-- A mark is met in front of both words or of none. -/
theorem headIs_mark_congr (hu : u.StartsWord) (hu' : u'.StartsWord) (mark : CodePoint)
    (other : mark ∈ nameless) (x : Text) : headIs (· == mark) (x ++ u') = headIs (· == mark) (x ++ u) := by
  rw [headIs_append (hu.headIs_mark mark other), headIs_append (hu'.headIs_mark mark other)]

/-- **A token that ends in front of a word** is scanned in front of any word. -/
theorem scanToken_congr (hu : u.StartsWord) (hu' : u'.StartsWord) {allowed : Bool} {c : CodePoint}
    {x : Text} {kind : TokenKind} {n : Nat}
    (h : scanToken allowed c (x ++ u) = .ok (.token kind n)) (le : n ≤ x.length + 1) :
    scanToken allowed c (x ++ u') = .ok (.token kind n) := by
  have digit : headIs Text.isDigit (x ++ u') = headIs Text.isDigit (x ++ u) := by
    rw [headIs_append hu.headIs_digit, headIs_append hu'.headIs_digit]
  have enclosed {e : Enclosure} (measured : (Enclosure.measure [e] 0 (x ++ u)).map (· + 1) = some n) :
      (Enclosure.measure [e] 0 (x ++ u')).map (· + 1) = some n := by
    obtain ⟨m, hm, rfl⟩ := Option.map_eq_some_iff.mp measured
    rw [measure_congr hm (Nat.le_of_succ_le_succ le) u', Option.map_some]
  unfold scanToken at h ⊢
  dsimp only at h ⊢
  rw [digit]
  by_cases quote : (c == doubleQuote || c == singleQuote) = true
  · rw [if_pos quote] at h ⊢
    obtain ⟨rfl, length⟩ := tokenOr_eq_ok h
    rw [stringLength?, enclosed length]
    rfl
  rw [if_neg quote] at h ⊢
  by_cases tick : (c == backtick) = true
  · rw [if_pos tick] at h ⊢
    obtain ⟨rfl, length⟩ := tokenOr_eq_ok h
    rw [templateLength?, enclosed length]
    rfl
  rw [if_neg tick] at h ⊢
  by_cases number : (Text.isDigit c || (c == '.' && headIs Text.isDigit (x ++ u))) = true
  · rw [if_pos number] at h ⊢
    obtain ⟨rfl, length⟩ := tokenOr_eq_ok h
    have pos := (recurs_numberLength? number length).1.pos
    rw [← List.cons_append] at length ⊢
    rw [hu.numberLength?_congr hu' length pos le]
    rfl
  rw [if_neg number] at h ⊢
  by_cases name : startsName c = true
  · rw [if_pos name] at h ⊢
    obtain ⟨rfl, rfl⟩ := Scan.token.inj (Except.ok.inj h)
    have same := takeWhile_append_congr
      (countWhile_lt_of_headIs (x := c :: x) hu.headIs_continuesName le) u'
    rw [List.cons_append, List.cons_append] at same
    rw [same]
  rw [if_neg name] at h ⊢
  by_cases slash : (c == '/' && allowed) = true
  · rw [if_pos slash] at h ⊢
    obtain ⟨rfl, length⟩ := tokenOr_eq_ok h
    rw [hu.regexpLength?_congr length le u']
    rfl
  rw [if_neg slash] at h ⊢
  rw [← List.cons_append, hu.scanSign_append] at h
  rw [← List.cons_append, hu'.scanSign_append]
  exact h

/-- **A gap that ends in front of a word** is scanned in front of any word. -/
theorem scan_gap_congr (hu : u.StartsWord) (hu' : u'.StartsWord) {allowed : Bool} {c : CodePoint}
    {x : Text} {n : Nat} (h : scan allowed c (x ++ u) = .ok (.gap n)) (le : n ≤ x.length + 1) :
    scan allowed c (x ++ u') = .ok (.gap n) := by
  by_cases starts : startsGap c (x ++ u) = true
  case neg =>
    rw [scan_of_startsGap_eq_false (Bool.eq_false_iff.mpr starts)] at h
    exact absurd h (scanToken_ne_gap allowed c _ n)
  unfold scan at h ⊢
  dsimp only at h ⊢
  rw [headIs_mark_congr hu hu' '/' (by decide),
    headIs_mark_congr hu hu' '*' (by decide)]
  by_cases blank : (isLineEnd c || isSpace c) = true
  · rw [if_pos blank] at h ⊢
    exact h
  rw [if_neg blank] at h ⊢
  by_cases line : (c == '/' && headIs (· == ('/' : CodePoint)) (x ++ u)) = true
  · rw [if_pos line] at h ⊢
    obtain rfl := Scan.gap.inj (Except.ok.inj h)
    have same := takeWhile_append_congr
      (countWhile_lt_of_headIs (x := c :: x) hu.headIs_inLine le) u'
    rw [List.cons_append, List.cons_append] at same
    rw [countWhile, same, countWhile]
  rw [if_neg line] at h ⊢
  by_cases block : (c == '/' && headIs (· == ('*' : CodePoint)) (x ++ u)) = true
  · rw [if_pos block] at h ⊢
    -- The star is not that of the word.
    have star := (Bool.and_eq_true_iff.mp block).2
    rw [headIs_append (hu.headIs_mark '*' (by decide))] at star
    obtain ⟨d, y, rfl⟩ : ∃ d y, x = d :: y := by
      cases x with
      | nil => cases star
      | cons d y => exact ⟨d, y, rfl⟩
    rw [List.cons_append, List.drop_one, List.tail_cons] at h ⊢
    split at h
    · rename_i k found
      obtain rfl := Scan.gap.inj (Except.ok.inj h)
      have length : ("*/" : Text).length = 2 := rfl
      rw [List.length_cons] at le
      rw [Text.find?, findFrom_congr (by decide) found (by omega) u']
    · cases h
  · unfold startsGap at starts
    rw [Bool.eq_false_iff.mpr blank, Bool.eq_false_iff.mpr line, Bool.eq_false_iff.mpr block] at starts
    cases starts

/-- A token starts with no gap in front of a word, and with none in front of any. -/
theorem scan_token_congr (hu : u.StartsWord) (hu' : u'.StartsWord) {allowed : Bool} {c : CodePoint}
    {x : Text} {kind : TokenKind} {n : Nat} (h : scan allowed c (x ++ u) = .ok (.token kind n))
    (le : n ≤ x.length + 1) : scan allowed c (x ++ u') = .ok (.token kind n) := by
  have noGap := startsGap_eq_false_of_scan h
  have noGap' : startsGap c (x ++ u') = false := by
    rw [startsGap, headIs_mark_congr hu hu' '/' (by decide),
      headIs_mark_congr hu hu' '*' (by decide)]
    exact noGap
  rw [scan_of_startsGap_eq_false noGap] at h
  rw [scan_of_startsGap_eq_false noGap', hu.scanToken_congr hu' h le]

end Text.StartsWord

/-! ## Pieces in front of a word and behind it -/

/-- What is left of a text behind a piece ends with what follows, whatever it is. -/
theorem exists_of_drop_eq {c : CodePoint} {rest x u : Text} {n : Nat} (pos : 0 < n)
    (le : n ≤ rest.length + 1) (left : (c :: rest).drop n = x ++ u) (u' : Text) :
    ∃ y, rest = y ++ u ∧ n ≤ y.length + 1 ∧ (c :: rest).take n = (c :: (y ++ u')).take n
      ∧ (c :: (y ++ u')).drop n = x ++ u' := by
  obtain ⟨n, rfl⟩ : ∃ k, n = k + 1 := ⟨n - 1, by omega⟩
  rw [List.drop_succ_cons] at left
  have length : (rest.take n).length = n := List.length_take_of_le (by omega)
  refine ⟨rest.take n ++ x, ?_, ?_, ?_, ?_⟩
  · rw [List.append_assoc, ← left, List.take_append_drop]
  · rw [List.length_append, length]
    omega
  · rw [List.take_succ_cons, List.take_succ_cons, List.append_assoc, List.take_left' length]
  · rw [List.drop_succ_cons, List.append_assoc, List.drop_left' length]

/-- **What is in front of a word is cut alike in front of any word.** -/
theorem Cuts.congr {allowed after : Bool} {t u u' : Text} {pieces : List SourcePiece}
    (cuts : Cuts allowed t pieces after u) (hu : u.StartsWord) (hu' : u'.StartsWord) :
    ∃ x, t = x ++ u ∧ Cuts allowed (x ++ u') pieces after u' := by
  induction cuts with
  | done allowed => exact ⟨[], rfl, .done allowed u'⟩
  | @gap allowed _ c rest _ n pieces found _ ih =>
    obtain ⟨pos, le, -⟩ := scan_isGap found
    obtain ⟨x, left, more⟩ := ih hu
    obtain ⟨y, rfl, within, taken, left'⟩ := exists_of_drop_eq pos le left u'
    refine ⟨c :: y, rfl, ?_⟩
    rw [taken]
    exact .gap (hu.scan_gap_congr hu' found within) (left'.symm ▸ more)
  | @token allowed _ c rest _ kind n pieces found _ ih =>
    obtain ⟨pos, le, -⟩ := scan_recurs found
    obtain ⟨x, left, more⟩ := ih hu
    obtain ⟨y, rfl, within, taken, left'⟩ := exists_of_drop_eq pos le left u'
    refine ⟨c :: y, rfl, ?_⟩
    rw [taken]
    exact .token (hu.scan_token_congr hu' found within) (left'.symm ▸ more)

/-- What is cut in two steps is cut. -/
theorem Cuts.append {allowed between after : Bool} {t middle remainder : Text}
    {pieces more : List SourcePiece} (cuts : Cuts allowed t pieces between middle)
    (further : Cuts between middle more after remainder) :
    Cuts allowed t (pieces ++ more) after remainder := by
  induction cuts with
  | done => exact further
  | gap found _ ih => exact .gap found (ih further)
  | token found _ ih => exact .token found (ih further)

/-- What is cut can be cut in two steps. -/
theorem Cuts.exists_append {allowed after : Bool} {t remainder : Text}
    {pieces more : List SourcePiece} (cuts : Cuts allowed t (pieces ++ more) after remainder) :
    ∃ between middle, Cuts allowed t pieces between middle ∧ Cuts between middle more after remainder := by
  induction pieces generalizing allowed t with
  | nil => exact ⟨allowed, t, .done allowed t, cuts⟩
  | cons piece pieces ih =>
    cases cuts with
    | gap found rest =>
      obtain ⟨between, middle, front, back⟩ := ih rest
      exact ⟨between, middle, .gap found front, back⟩
    | token found rest =>
      obtain ⟨between, middle, front, back⟩ := ih rest
      exact ⟨between, middle, .token found front, back⟩

/-- What begins with no slash is scanned alike, whatever a slash would be. -/
theorem scan_eq_of_ne_slash {c : CodePoint} (h : c ≠ '/') (allowed allowed' : Bool) (rest : Text) :
    scan allowed c rest = scan allowed' c rest := by
  have noSlash : (c == ('/' : CodePoint)) = false := beq_eq_false_iff_ne.mpr h
  unfold scan
  simp only [noSlash, Bool.false_and]

/-- A gap is one whatever a slash would be. -/
theorem scan_gap_eq {allowed : Bool} {c : CodePoint} {rest : Text} {n : Nat}
    (h : scan allowed c rest = .ok (.gap n)) (allowed' : Bool) :
    scan allowed' c rest = .ok (.gap n) := by
  by_cases starts : startsGap c rest = true
  · rw [← h]
    unfold startsGap at starts
    unfold scan
    dsimp only
    by_cases blank : (isLineEnd c || isSpace c) = true
    · rw [if_pos blank, if_pos blank]
    by_cases line : (c == '/' && headIs (· == ('/' : CodePoint)) rest) = true
    · rw [if_neg blank, if_neg blank, if_pos line, if_pos line]
    rw [Bool.eq_false_iff.mpr blank, Bool.eq_false_iff.mpr line, Bool.false_or, Bool.false_or] at starts
    rw [if_neg blank, if_neg blank, if_neg line, if_neg line, if_pos starts, if_pos starts]
  · rw [scan_of_startsGap_eq_false (Bool.eq_false_iff.mpr starts)] at h
    exact absurd h (scanToken_ne_gap allowed c rest n)

/-- A token that begins with a slash is a regular expression just if a slash may open one. -/
theorem scan_slash {allowed : Bool} {rest : Text} {kind : TokenKind} {n : Nat}
    (h : scan allowed ('/' : CodePoint) rest = .ok (.token kind n)) :
    kind = .regexp ↔ allowed = true := by
  have ofSign : ∀ sign ∈ signs, sign.2 ≠ .regexp := by decide
  rw [scan_of_startsGap_eq_false (startsGap_eq_false_of_scan h)] at h
  unfold scanToken at h
  dsimp only at h
  have noDigit : Text.isDigit '/' = false := by decide
  rw [if_neg (by decide), if_neg (by decide), noDigit, Bool.false_or,
    if_neg (fun point => absurd (Bool.and_eq_true_iff.mp point).1 (by decide)),
    startsName_of_mem_nameless '/' (by decide), if_neg Bool.false_ne_true] at h
  cases allowed with
  | true =>
    rw [if_pos (by decide)] at h
    exact iff_of_true (tokenOr_eq_ok h).1 rfl
  | false =>
    rw [if_neg (by decide)] at h
    unfold scanSign at h
    split at h
    · rename_i found
      cases h
      exact iff_of_false (ofSign _ (List.mem_of_find?_eq_some found)) nofun
    · cases h

/-- A token starts with the code point that it was scanned at. -/
theorem head?_source_tokenOf {allowed : Bool} {c : CodePoint} {rest : Text} {kind : TokenKind}
    {n : Nat} (found : scan allowed c rest = .ok (.token kind n)) (newline : Bool) :
    (tokenOf (kind, keptText kind ((c :: rest).take n), newline)).source.head? = some c := by
  obtain ⟨pos, -, -⟩ := scan_recurs found
  rw [tokenOf, scan_keeps found, List.head?_take, if_neg (Nat.ne_of_gt pos)]
  rfl

/-- Whether **a slash comes first** among contents. -/
def SlashFirst (contents : List (TokenKind × Text × Bool)) : Prop :=
  ∃ content ∈ contents.head?, (tokenOf content).source.head? = some ('/' : CodePoint)

/-- **Where no slash comes first**, a text is cut alike whatever a slash would be. -/
theorem Cuts.of_not_slashFirst {allowed after newline : Bool} {t : Text} {pieces : List SourcePiece}
    (cuts : Cuts allowed t pieces after []) (other : ¬ SlashFirst (contents newline pieces))
    (allowed' : Bool) : ∃ after', Cuts allowed' t pieces after' [] := by
  generalize end_ : ([] : Text) = remainder at cuts
  induction cuts generalizing newline with
  | done allowed => subst end_; exact ⟨allowed', .done allowed' []⟩
  | gap found _ ih =>
    obtain ⟨after', more⟩ := ih other end_
    exact ⟨after', .gap (scan_gap_eq found allowed') more⟩
  | @token allowed after c rest _ kind n pieces found more ih =>
    have noSlash : c ≠ '/' := by
      rintro rfl
      exact other ⟨_, rfl, head?_source_tokenOf found newline⟩
    rw [scan_eq_of_ne_slash noSlash allowed allowed'] at found
    exact ⟨after, .token found more⟩

/-- **Where a slash comes first**, the tokens are of different kinds if it divides and if it opens a
regular expression. -/
theorem Cuts.kind_ne_of_slashFirst {allowed after after' newline newline' : Bool} {t : Text}
    {pieces pieces' : List SourcePiece} (cuts : Cuts allowed t pieces after [])
    (slash : SlashFirst (contents newline pieces)) (cuts' : Cuts (!allowed) t pieces' after' []) :
    (contents newline pieces).head?.map Prod.fst ≠ (contents newline' pieces').head?.map Prod.fst := by
  generalize end_ : ([] : Text) = remainder at cuts
  induction cuts generalizing newline newline' pieces' with
  | done allowed =>
    obtain ⟨content, first, slash⟩ := slash
    obtain rfl := Option.some.inj first
    cases slash
  | @gap allowed _ c rest _ n pieces found _ ih =>
    cases cuts' with
    | gap found' more =>
      obtain rfl := Scan.gap.inj (Except.ok.inj (found'.symm.trans (scan_gap_eq found _)))
      rw [contents, contents]
      exact ih slash more end_
    | token found' more => cases found'.symm.trans (scan_gap_eq found _)
  | @token allowed _ c rest _ kind n pieces found _ ih =>
    obtain ⟨content, first, slash⟩ := slash
    obtain rfl := Option.some.inj first
    obtain rfl : c = '/' :=
      Option.some.inj ((head?_source_tokenOf found newline).symm.trans slash)
    cases cuts' with
    | gap found' more => cases found.symm.trans (scan_gap_eq found' _)
    | token found' more =>
      intro same
      obtain rfl := Option.some.inj same
      have divides := scan_slash found
      have opens := scan_slash found'
      cases allowed with
      | true => exact absurd (opens.mp (divides.mpr rfl)) Bool.false_ne_true
      | false => exact absurd (divides.mp (opens.mpr rfl)) Bool.false_ne_true

/-! ## The tokens in front of a word and behind it -/

/-- The tokens of a state are the first of those that it gets with more pieces. -/
theorem exists_tokens_foldl_take (pieces : List SourcePiece) (s : LexState) :
    ∃ more, (pieces.foldl LexState.take s).tokens.reverse = s.tokens.reverse ++ more := by
  induction pieces generalizing s with
  | nil => exact ⟨[], (List.append_nil _).symm⟩
  | cons piece pieces ih =>
    obtain ⟨more, same⟩ := ih (s.take piece)
    rw [List.foldl_cons, same]
    cases piece with
    | gap source =>
      unfold LexState.take
      rw [LexState.tokens_pass]
      exact ⟨more, rfl⟩
    | token kind source =>
      unfold LexState.take
      rw [LexState.tokens_pass, LexState.emit, List.reverse_cons, List.append_assoc]
      exact ⟨_, rfl⟩

/-- **Each token is that of a piece**, in the state that the pieces in front of it lead to. -/
theorem exists_piece_of_token {pieces : List SourcePiece} {s : LexState} {before after : List Token}
    {t : Token} (h : (pieces.foldl LexState.take s).tokens.reverse
      = s.tokens.reverse ++ (before ++ t :: after)) :
    ∃ front kind source back, pieces = front ++ .token kind source :: back
      ∧ (front.foldl LexState.take s).tokens.reverse = s.tokens.reverse ++ before
      ∧ t = ⟨kind, keptText kind source, (front.foldl LexState.take s).line,
        (front.foldl LexState.take s).column, (front.foldl LexState.take s).newline⟩ := by
  induction pieces generalizing s before with
  | nil => exact absurd (List.self_eq_append_right.mp h) (List.append_ne_nil_of_right_ne_nil _ nofun)
  | cons piece pieces ih =>
    rw [List.foldl_cons] at h
    cases piece with
    | gap source =>
      have kept : (s.take (.gap source)).tokens = s.tokens := LexState.tokens_pass _ _
      rw [← kept] at h
      obtain ⟨front, kind, source', back, rfl, tokens, same⟩ := ih h
      exact ⟨.gap source :: front, kind, source', back, rfl, kept ▸ tokens, same⟩
    | token kind source =>
      have one : (s.take (.token kind source)).tokens.reverse
          = s.tokens.reverse ++ [⟨kind, keptText kind source, s.line, s.column, s.newline⟩] := by
        rw [LexState.take, LexState.tokens_pass, LexState.emit, List.reverse_cons]
      obtain ⟨more, all⟩ := exists_tokens_foldl_take pieces (s.take (.token kind source))
      rw [all, one, List.append_assoc] at h
      cases before with
      | nil =>
        obtain rfl := (List.cons.inj (List.append_cancel_left h)).1
        exact ⟨[], kind, source, pieces, rfl, (List.append_nil _).symm, rfl⟩
      | cons first before =>
        obtain ⟨rfl, rfl⟩ := List.cons.inj (List.append_cancel_left h)
        obtain ⟨front, kind', source', back, rfl, tokens, same⟩ := ih all
        refine ⟨.token kind source :: front, kind', source', back, rfl, ?_, same⟩
        rw [List.foldl_cons, tokens, one, List.append_assoc]
        rfl

/-- The contents of the tokens in front of one, its own, and those of what is behind it. -/
theorem content_foldl_take_token (front : List SourcePiece) (kind : TokenKind) (source : Text)
    (back : List SourcePiece) (s : LexState) :
    (((front ++ .token kind source :: back).foldl LexState.take s).emit .endOfText
        []).tokens.reverse.map Token.content
      = (front.foldl LexState.take s).tokens.reverse.map Token.content
        ++ (kind, keptText kind source, (front.foldl LexState.take s).newline)
          :: contents false back := by
  rw [List.foldl_append, List.foldl_cons, content_foldl_take, LexState.take, LexState.tokens_pass,
    LexState.newline_pass, LexState.emit, List.reverse_cons, List.map_append, List.append_assoc]
  rfl

/-- **Where a token is scanned**: the pieces in front lead to it and to the tokens before it, and
those behind have the contents of the tokens after it. -/
theorem exists_scan_of_tokenize {line : Int} {source : Text} {before after : List Token} {t : Token}
    (cut : tokenize source line = .ok (before ++ t :: after)) (inside : t.kind ≠ .endOfText) :
    ∃ pieces allowed c rest n behind last, Cuts true source pieces allowed (c :: rest)
      ∧ scan allowed c rest = .ok (.token t.kind n)
      ∧ Cuts (!t.kind.endsValue) ((c :: rest).drop n) behind last []
      ∧ (pieces.foldl LexState.take (.start line)).tokens.reverse = before
      ∧ t = ⟨t.kind, keptText t.kind ((c :: rest).take n),
        (pieces.foldl LexState.take (.start line)).line,
        (pieces.foldl LexState.take (.start line)).column,
        (pieces.foldl LexState.take (.start line)).newline⟩
      ∧ contents false behind = after.map Token.content := by
  rcases tokenize_cases source line with
    ⟨pieces, last, cuts, same⟩ | ⟨pieces, after, remainder, cause, cuts, stuck, same⟩
  case inr => cases cut.symm.trans same
  have tokens := Except.ok.inj (cut.symm.trans same)
  -- The token is not the end of the text, so it is that of a piece.
  obtain ⟨more, eof, rfl⟩ : ∃ more eof, after = more ++ [eof] := by
    rcases List.eq_nil_or_concat after with rfl | ⟨more, eof, rfl⟩
    · rw [LexState.emit, List.reverse_cons] at tokens
      obtain ⟨-, rfl⟩ := List.append_singleton_inj.mp tokens
      exact absurd rfl inside
    · exact ⟨more, eof, List.concat_eq_append⟩
  have walked : (pieces.foldl LexState.take (.start line)).tokens.reverse
      = (LexState.start line).tokens.reverse ++ (before ++ t :: more) := by
    rw [LexState.emit, List.reverse_cons, ← List.cons_append, ← List.append_assoc] at tokens
    exact (List.append_singleton_inj.mp tokens).1.symm
  obtain ⟨pieces, kind, text, behind, rfl, front, rfl⟩ := exists_piece_of_token walked
  have contents := content_foldl_take_token pieces kind text behind (.start line)
  rw [← tokens, List.map_append, front] at contents
  obtain ⟨allowed, middle, toToken, fromToken⟩ := cuts.exists_append
  cases fromToken with
  | @token _ _ c rest _ _ n _ found further =>
    exact ⟨pieces, allowed, c, rest, n, behind, last, toToken, found, further, front, rfl,
      (List.cons.inj (List.append_cancel_left contents)).2.symm⟩

/-- The text of a word is kept as it is. -/
theorem keptText_of_isWord {kind : TokenKind} (isWord : kind.isWord = true) (source : Text) :
    keptText kind source = source := by
  unfold keptText
  exact if_neg fun template => by rw [template] at isWord; cases isWord

/-- **What surrounds a word** between two texts: the pieces in front of it, which lead to the tokens
before it, and those behind it, which have the contents of the tokens after it. -/
structure WordSite (line : Int) (front back : Text) (word : Token) (before after : List Token) where
  /-- The pieces in front. -/
  pieces : List SourcePiece
  /-- Whether a slash opens a regular expression in place of the word. -/
  allowed : Bool
  /-- The pieces behind. -/
  behind : List SourcePiece
  /-- Whether it does so at the end. -/
  last : Bool
  /-- What is in front is cut into the pieces in front. -/
  cuts : Cuts true (front ++ (word.text ++ back)) pieces allowed (word.text ++ back)
  /-- They lead to the tokens before the word. -/
  tokens : (pieces.foldl LexState.take (.start line)).tokens.reverse = before
  /-- The word is one. -/
  starts : (word.text ++ back).StartsWord
  /-- It does not go on. -/
  ends : headIs continuesName back = false
  /-- What is behind is cut into the pieces behind. -/
  rest : Cuts (!word.kind.endsValue) back behind last []
  /-- They have the contents of the tokens after it. -/
  follows : contents false behind = after.map Token.content

/-- A word that is one of the tokens of a text is surrounded by the others. -/
theorem exists_wordSite {line : Int} {front back : Text} {word : Token} {before after : List Token}
    (cut : tokenize (front ++ word.text ++ back) line = .ok (before ++ word :: after))
    (isWord : word.kind.isWord = true)
    (stands : ⟨word.line, word.column⟩ = placeAt (front ++ word.text ++ back) line front.length) :
    Nonempty (WordSite line front back word before after) := by
  have inside : word.kind ≠ .endOfText := fun same => by rw [same] at isWord; cases isWord
  rw [List.append_assoc] at cut stands
  obtain ⟨pieces, allowed, c, rest, n, behind, last, toWord, found, further, tokens, same, follows⟩ :=
    exists_scan_of_tokenize cut inside
  obtain ⟨name, noDigit, -, length⟩ := scan_isWord found isWord
  obtain ⟨-, le, -⟩ := scan_recurs found
  have text : (c :: rest).take n = word.text := by
    rw [congrArg Token.text same]
    exact (keptText_of_isWord isWord _).symm
  -- What is scanned as the word stands where the word does.
  obtain ⟨stop, offset, there, left⟩ := toWord.stands rfl (.start _ line)
  have place : (⟨word.line, word.column⟩ : Place) = placeAt (front ++ (word.text ++ back)) line offset :=
    (congrArg (fun t : Token => (⟨t.line, t.column⟩ : Place)) same).trans there.place
  have here : offset = front.length := by
    refine placeAt_inj there.inside ?_ (place.symm.trans stands)
    rw [List.length_append]
    exact Nat.le_add_right _ _
  rw [here, List.drop_left] at left
  have behind' : (c :: rest).drop n = back := by
    rw [← text] at left
    exact List.append_cancel_left ((List.take_append_drop n (c :: rest)).trans left.symm)
  refine ⟨pieces, allowed, behind, last, left ▸ toWord, tokens, ?_, ?_, behind' ▸ further, follows⟩
  · exact ⟨c, rest, left, name, noDigit⟩
  · refine Bool.eq_false_iff.mpr fun goesOn => ?_
    have longer : countWhile continuesName (word.text ++ back) = word.text.length := by
      rw [left, ← length, ← text, List.length_take_of_le le]
    exact absurd longer (Nat.ne_of_lt (countWhile_lt_of_headIs goesOn (Nat.le_of_eq longer)))

/-! ## Replacing the word -/

/-- What a token **says**: its kind and its text. -/
def Token.spelling (t : Token) : TokenKind × Text :=
  (t.kind, t.text)

namespace WordSite

variable {line : Int} {front back other : Text} {word : Token} {before after : List Token}
  (h : WordSite line front back word before after)
include h

/-- What is in front of the word is in front of any other, with that in place of the word. -/
theorem cuts_replaced (named : other.isWord = true) : Cuts true (front ++ (other ++ back))
    (h.pieces ++ [.token (kindOfWord other) other]) (!(kindOfWord other).endsValue) back := by
  obtain ⟨x, same, cuts⟩ := h.cuts.congr h.starts ((Text.startsWord_of_isWord named).1 back)
  obtain rfl := List.append_cancel_right same
  refine cuts.append ?_
  cases other with
  | nil => cases named
  | cons c rest =>
    have taken : (c :: (rest ++ back)).take (c :: rest).length = c :: rest := List.take_left' rfl
    have left : (c :: (rest ++ back)).drop (c :: rest).length = back := List.drop_left' rfl
    have rest' : Cuts (!(kindOfWord (c :: rest)).endsValue)
        ((c :: (rest ++ back)).drop (c :: rest).length) [] (!(kindOfWord (c :: rest)).endsValue) back := by
      rw [left]
      exact .done _ back
    have found := Cuts.token (scan_word named h.ends h.allowed) rest'
    rwa [taken] at found

/-- If what is behind the word is cut up to the end, then so is the text with the word replaced, and
its tokens have the contents of what it is cut into. -/
theorem tokenize_replaced (named : other.isWord = true) {behind : List SourcePiece} {last : Bool}
    (rest : Cuts (!(kindOfWord other).endsValue) back behind last []) :
    ∃ tokens, tokenize (front ++ (other ++ back)) line = .ok tokens
      ∧ tokens.map Token.spelling = before.map Token.spelling
        ++ (kindOfWord other, other) :: (contents false behind).map fun c => (c.1, c.2.1) := by
  have cuts := (h.cuts_replaced named).append rest
  rw [List.append_assoc, List.singleton_append] at cuts
  refine ⟨_, cuts.tokenize_eq_ok line, ?_⟩
  have said := content_foldl_take_token h.pieces (kindOfWord other) other behind (.start line)
  rw [keptText_of_isWord (kindOfWord_isWord other), h.tokens] at said
  have spelled := congrArg (List.map fun c : TokenKind × Text × Bool => (c.1, c.2.1)) said
  rw [List.map_map, List.map_append, List.map_map] at spelled
  exact spelled

/-- What is behind the word says what the tokens after it say, -/
theorem spelling_follows :
    (contents false h.behind).map (fun c => (c.1, c.2.1)) = after.map Token.spelling := by
  rw [h.follows, List.map_map]
  rfl

/-- and a slash comes first there if the next token starts with one. -/
theorem slashFirst_iff : SlashFirst (contents false h.behind)
    ↔ ∃ next ∈ after.head?, next.source.head? = some ('/' : CodePoint) := by
  rw [h.follows, SlashFirst, List.head?_map]
  cases after with
  | nil => exact iff_of_false (fun first => nomatch first) (fun first => nomatch first)
  | cons next after =>
    constructor
    · rintro ⟨_, first, slash⟩
      obtain rfl := Option.some.inj first
      exact ⟨next, rfl, slash⟩
    · rintro ⟨_, first, slash⟩
      obtain rfl := Option.some.inj first
      exact ⟨_, rfl, slash⟩

/-- **What is behind the word is cut as before** behind another word if values end with both or with
neither, or if no slash comes first there. -/
theorem exists_rest
    (condition : (kindOfWord other).endsValue = word.kind.endsValue
      ∨ ¬ SlashFirst (contents false h.behind)) :
    ∃ last, Cuts (!(kindOfWord other).endsValue) back h.behind last [] := by
  rcases condition with same | noSlash
  · exact ⟨h.last, same ▸ h.rest⟩
  · exact h.rest.of_not_slashFirst noSlash _

/-- **It is not cut as before** if values end with one of the words only and a slash comes first. -/
theorem not_replaced (named : other.isWord = true)
    (differ : (kindOfWord other).endsValue ≠ word.kind.endsValue)
    (slash : SlashFirst (contents false h.behind)) {tokens : List Token}
    (cut : tokenize (front ++ (other ++ back)) line = .ok tokens) :
    tokens.map Token.spelling ≠ before.map Token.spelling
      ++ (kindOfWord other, other) :: after.map Token.spelling := by
  intro same
  have flipped : (!(kindOfWord other).endsValue) = !!word.kind.endsValue := by
    rw [Bool.eq_not_of_ne differ]
  obtain ⟨behind, last, remainder, rest, rfl | ⟨cause, stuck⟩⟩ :=
    exists_cuts (!(kindOfWord other).endsValue) back
  · obtain ⟨tokens', cut', same'⟩ := h.tokenize_replaced named rest
    obtain rfl := Except.ok.inj (cut.symm.trans cut')
    have alike := (List.cons.inj (List.append_cancel_left (same.symm.trans same'))).2
    rw [← h.spelling_follows] at alike
    rw [flipped] at rest
    have kinds := congrArg (fun l : List (TokenKind × Text) => l.head?.map Prod.fst) alike
    rw [List.head?_map, List.head?_map, Option.map_map, Option.map_map] at kinds
    exact h.rest.kind_ne_of_slashFirst slash rest kinds
  · have failed := ((h.cuts_replaced named).append rest).tokenize_eq_error stuck line
    cases cut.symm.trans failed

end WordSite

/-- **One word takes the place of another.** Let a word stand among the tokens of a text, behind a
dot or anything else, and let any other word be put in its place. Then the text can be cut into
tokens, and all other tokens keep their kinds and texts, just if values end with both words or with
neither, or else the next token does not start with a slash. -/
theorem tokenize_replaces_word {line : Int} {front back other : Text} {word : Token}
    {before after : List Token}
    (cut : tokenize (front ++ word.text ++ back) line = .ok (before ++ word :: after))
    (isWord : word.kind.isWord = true)
    (stands : ⟨word.line, word.column⟩ = placeAt (front ++ word.text ++ back) line front.length)
    (named : other.isWord = true) :
    (∃ tokens, tokenize (front ++ other ++ back) line = .ok tokens
      ∧ tokens.map Token.spelling = before.map Token.spelling
        ++ (kindOfWord other, other) :: after.map Token.spelling)
    ↔ (kindOfWord other).endsValue = word.kind.endsValue
      ∨ ¬ ∃ next ∈ after.head?, next.source.head? = some ('/' : CodePoint) := by
  obtain ⟨h⟩ := exists_wordSite cut isWord stands
  rw [List.append_assoc, ← h.slashFirst_iff]
  constructor
  · rintro ⟨tokens, cut', same⟩
    exact Decidable.or_iff_not_imp_left.mpr fun differ slash =>
      h.not_replaced named differ slash cut' same
  · intro condition
    obtain ⟨last, rest⟩ := h.exists_rest condition
    obtain ⟨tokens, cut', same⟩ := h.tokenize_replaced named rest
    exact ⟨tokens, cut', h.spelling_follows ▸ same⟩

/-- One property in place of another, with a name behind which a slash divides as well. -/
theorem tokenize_replaces_word_of_property :
    ∃ tokens, tokenize "a.this/2" 1 = .ok tokens
      ∧ tokens.map Token.spelling = ([(.identifier, "a"), (.dot, "."), (.thisWord, "this"),
        (.operator, "/"), (.number, "2"), (.endOfText, [])] : List (TokenKind × Text)) := by
  have cut : tokenize (("a." : Text) ++ ("b" : Text) ++ ("/2" : Text)) 1
      = .ok ([⟨.identifier, "a", 1, 1, false⟩, ⟨.dot, ".", 1, 2, false⟩]
        ++ ⟨.identifier, "b", 1, 3, false⟩ :: [⟨.operator, "/", 1, 4, false⟩,
          ⟨.number, "2", 1, 5, false⟩, ⟨.endOfText, [], 1, 6, false⟩]) :=
    Except.eq_ok_of_toOption (by decide +kernel)
  have stands : (⟨1, 3⟩ : Place)
      = placeAt (("a." : Text) ++ ("b" : Text) ++ ("/2" : Text)) 1 ("a." : Text).length := by
    decide
  have named : Text.isWord "this" = true := by decide +kernel
  have ends : (kindOfWord "this").endsValue = TokenKind.identifier.endsValue := by decide
  obtain ⟨tokens, renamed, same⟩ := (@tokenize_replaces_word 1 "a." "/2" "this"
    ⟨.identifier, "b", 1, 3, false⟩ _ _ cut rfl stands named).mpr (.inl ends)
  exact ⟨tokens, renamed, same.trans (by decide +kernel)⟩

/-- With a keyword for its name, a property is not followed by what divides it, as it is with any
other name, but by a regular expression that is left open. -/
theorem not_replaces_word_of_typeof :
    (∃ tokens, tokenize "a.b/2" 1 = .ok tokens ∧ tokens.map Token.spelling = ([(.identifier, "a"),
        (.dot, "."), (.identifier, "b"), (.operator, "/"), (.number, "2"), (.endOfText, [])]
        : List (TokenKind × Text)))
      ∧ Text.isWord "typeof" = true ∧ ¬ ∃ tokens, tokenize "a.typeof/2" 1 = .ok tokens := by
  have cut : tokenize "a.b/2" 1 = .ok [⟨.identifier, "a", 1, 1, false⟩, ⟨.dot, ".", 1, 2, false⟩,
      ⟨.identifier, "b", 1, 3, false⟩, ⟨.operator, "/", 1, 4, false⟩, ⟨.number, "2", 1, 5, false⟩,
      ⟨.endOfText, [], 1, 6, false⟩] :=
    Except.eq_ok_of_toOption (by decide +kernel)
  have stuck : (tokenize "a.typeof/2" 1).toOption = none := by decide +kernel
  refine ⟨⟨_, cut, rfl⟩, by decide +kernel, ?_⟩
  rintro ⟨tokens, same⟩
  rw [same] at stuck
  cases stuck

end Scriptlet
