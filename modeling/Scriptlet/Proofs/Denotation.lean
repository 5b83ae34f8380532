import Scriptlet.Proofs.Denotation.Numeral
import Scriptlet.Proofs.Pieces
import Scriptlet.Proofs.Scanning
import Scriptlet.Proofs.Spelling
import Scriptlet.Walk.Literal

/-!
# What numerals denote

A text is cut into tokens by code that knows numerals by sight, and what a token of a number stands
for is found by code that reads numerals in texts of all sorts. The two have grammars of their own,
and agree by way of a third, that of numerals in parts.

Each token of a number is spelled by such a numeral. It is read as the value of the numeral if its
digits are *familiar*, unless there are too many of them. Whoever cuts texts also takes digit marks
for digits, and in other bases than ten the decimal digits of all scripts; whoever reads does not,
and finds what is not a number.
-/

namespace Scriptlet

/-! ## What numerals are spelled with -/

/-- Whether a code point is a digit or one of the **marks** in decimal numerals. -/
def IsDecimalSign (digit : CodePoint → Bool) (c : CodePoint) : Prop :=
  digit c = true ∨ c ∈ (".eE+-" : Text)

/-- The marks in decimal numerals are marks in numerals. -/
theorem mem_numeralMarks : ∀ mark ∈ (".eE+-" : Text), mark ∈ Text.numeralMarks := by
  decide

theorem IsDecimalSign.isBlank_eq {c : CodePoint} (h : IsDecimalSign Text.isDigit c) :
    Text.isBlank c = false :=
  h.elim Text.isBlank_of_isDigit fun mark =>
    (Text.apart_of_mem_numeralMarks c (mem_numeralMarks c mark)).2

/-- The letters of the bases. -/
theorem mem_of_radixOfLetter? {c : CodePoint} {base : Nat} (h : radixOfLetter? c = some base) :
    c ∈ ("xXoObB" : Text) := by
  by_contra other
  have unlike : ∀ letter ∈ ("xXoObB" : Text), (c == letter) = false := fun letter mem =>
    beq_false_of_ne fun same => other (same ▸ mem)
  have none : radixOfLetter? c = none := by
    unfold radixOfLetter?
    rw [unlike 'x' (by decide), unlike 'X' (by decide), unlike 'o' (by decide),
      unlike 'O' (by decide), unlike 'b' (by decide), unlike 'B' (by decide)]
    rfl
  rw [none] at h
  cases h

theorem IsDecimalSign.radixOfLetter?_eq {c : CodePoint} (h : IsDecimalSign Text.isDigit c) :
    radixOfLetter? c = none := by
  rw [Option.eq_none_iff_forall_ne_some]
  intro base announced
  have letter := mem_of_radixOfLetter? announced
  rcases h with digit | mark
  · exact Text.not_mem_of_isDigit digit (by decide) letter
  · have marks : ∀ c ∈ (".eE+-" : Text), c ∉ ("xXoObB" : Text) := by decide
    exact marks c mark letter

namespace Numeral

/-- **What a decimal numeral is spelled with.** -/
theorem isDecimalSign_of_mem {whole : Text} {fraction? : Option Text}
    {exponent? : Option WrittenExponent} (h : (decimal whole fraction? exponent?).IsFormed) :
    ∀ c ∈ (decimal whole fraction? exponent?).spelling, IsDecimalSign Text.isDigit c := by
  obtain ⟨digits, -, formed⟩ := h
  obtain ⟨wholeDigits, fractionDigits⟩ := List.forall_mem_append.mp digits
  refine List.forall_mem_append.mpr ⟨List.forall_mem_append.mpr ⟨?_, ?_⟩, ?_⟩
  · exact fun c mem => .inl (wholeDigits c mem)
  · cases fraction? with
    | none => exact nofun
    | some fraction =>
      exact List.forall_mem_cons.mpr ⟨.inr (by decide), fun c mem => .inl (fractionDigits c mem)⟩
  · cases exponent? with
    | none => exact nofun
    | some e =>
      obtain ⟨letter, sign, digits, -⟩ := formed e rfl
      refine List.forall_mem_cons.mpr ⟨.inr ?_, List.forall_mem_append.mpr ⟨fun c mem => .inr ?_,
        fun c mem => .inl (digits c mem)⟩⟩
      · obtain h | h := letter <;> rw [h] <;> decide
      · obtain h | h | h := sign <;> rw [h] at mem
        · cases mem
        · obtain rfl := List.mem_singleton.mp mem
          decide
        · obtain rfl := List.mem_singleton.mp mem
          decide

/-- No numeral has blanks in it. -/
theorem isBlank_of_mem_spelling {x : Numeral} (h : x.IsFormed) :
    ∀ c ∈ x.spelling, Text.isBlank c = false := by
  cases x with
  | decimal whole fraction? exponent? =>
    exact fun c mem => (isDecimalSign_of_mem h c mem).isBlank_eq
  | inBase letter digits =>
    obtain ⟨base, announced, -, fits⟩ := h
    refine List.forall_mem_cons.mpr
      ⟨Text.isBlank_of_isDigit Text.isDigit_zero, List.forall_mem_cons.mpr ⟨?_, ?_⟩⟩
    · have letters : ∀ c ∈ ("xXoObB" : Text), c ∈ Text.numeralMarks := by decide
      exact (Text.apart_of_mem_numeralMarks _ (letters _ (mem_of_radixOfLetter? announced))).2
    · intro c mem
      obtain ⟨d, -, value⟩ := fits c mem
      exact Text.isBlank_of_digitValue? value

/-- A numeral **starts** with a digit or a point. -/
theorem exists_spelling_eq_cons {x : Numeral} (h : x.IsFormed) :
    ∃ c rest, x.spelling = c :: rest ∧ (Text.isDigit c = true ∨ c = '.') := by
  cases x with
  | decimal whole fraction? exponent? =>
    obtain ⟨digits, some, -⟩ := h
    cases whole with
    | cons c whole => exact ⟨c, _, rfl, .inl (digits c List.mem_cons_self)⟩
    | nil =>
      cases fraction? with
      | none => exact absurd rfl some
      | some fraction => exact ⟨'.', _, rfl, .inr rfl⟩
  | inBase letter digits => exact ⟨'0', _, rfl, .inl Text.isDigit_zero⟩

end Numeral

/-! ## Reading -/

/-- **A text that starts as a numeral does**, and has no blanks in it, is read by the readers of
numerals. -/
theorem numberOfText_of_start {t rest : Text} {c : CodePoint} (spelled : t = c :: rest)
    (start : Text.isDigit c = true ∨ c = '.') (plain : ∀ c ∈ t, Text.isBlank c = false) :
    numberOfText t = match readRadix? t with
      | some n => .ok (.int n)
      | none => match readNumeral? t with
        | some d => d.value
        | none => .ok (.float notANumber) := by
  have first : c ∉ ("I+-" : Text) := by
    rcases start with digit | rfl
    · exact Text.not_mem_of_isDigit digit (by decide)
    · decide
  have unlike : ∀ word ∈ ([("Infinity" : Text), "+Infinity", "-Infinity"]),
      (t == word) = false := by
    have starts : ∀ word ∈ ([("Infinity" : Text), "+Infinity", "-Infinity"]),
        ∃ d ∈ ("I+-" : Text), word.head? = some d := by decide
    intro word mem
    obtain ⟨d, hd, head⟩ := starts word mem
    refine beq_false_of_ne fun same => first ?_
    rw [← same, spelled] at head
    exact Option.some.inj head ▸ hd
  obtain ⟨plus, positive, negative⟩ :
    (t == "Infinity") = false ∧ (t == "+Infinity") = false ∧ (t == "-Infinity") = false :=
    ⟨unlike _ (by decide), unlike _ (by decide), unlike _ (by decide)⟩
  have some : t.isEmpty = false := by
    rw [spelled]
    rfl
  unfold numberOfText
  dsimp only
  rw [Text.trim_of_notBlank plain, plus, positive, negative, some]
  rfl

/-- What is left of a text when a sign is split off. -/
theorem mem_of_takeSign {t : Text} {c : CodePoint} (h : c ∈ t) :
    c ∈ (takeSign t).2 ∨ IsDecimalSign Text.isDecimal c := by
  cases t with
  | nil => cases h
  | cons d rest =>
    rw [takeSign]
    split_ifs with minus plus
    · refine (List.mem_cons.mp h).symm.imp_right fun same => .inr ?_
      rw [same, beq_iff_eq.mp minus]
      decide
    · refine (List.mem_cons.mp h).symm.imp_right fun same => .inr ?_
      rw [same, beq_iff_eq.mp plus]
      decide
    · exact .inl h

theorem familiar_of_readExponent? {t : Text} {read : Bool × Int} (h : readExponent? t = some read) :
    ∀ c ∈ t, IsDecimalSign Text.isDecimal c := by
  cases t with
  | nil => exact nofun
  | cons d rest =>
    unfold readExponent? at h
    obtain ⟨letter, h⟩ := Option.ite_none_right_eq_some.mp h
    obtain ⟨digits, -⟩ := Option.ite_none_left_eq_some.mp h
    rw [Bool.or_eq_true, Bool.not_eq_true', not_or, Bool.not_eq_false, List.all_eq_true] at digits
    refine List.forall_mem_cons.mpr ⟨.inr ?_, fun c mem => ?_⟩
    · obtain same | same := Bool.or_eq_true_iff.mp letter <;> rw [beq_iff_eq.mp same] <;> decide
    · exact (mem_of_takeSign mem).elim (fun mem => .inl (digits.2 c mem)) id

/-- Whether decimal digits end where a text begins. -/
def EndsDigits (t : Text) : Prop :=
  ∀ c ∈ t.head?, Text.isDecimal c = false

theorem exists_digits (t : Text) :
    ∃ digits rest : Text, t = digits ++ rest ∧ (∀ c ∈ digits, Text.isDecimal c = true)
      ∧ EndsDigits rest :=
  ⟨t.takeWhile Text.isDecimal, t.dropWhile Text.isDecimal, List.takeWhile_append_dropWhile.symm,
    fun _ mem => List.mem_takeWhile_imp mem, fun c head => by
      have stops := List.head?_dropWhile_not Text.isDecimal t
      rw [Option.mem_def.mp head] at stops
      exact Bool.eq_false_iff.mpr (by simpa using stops)⟩

section Parts

variable {t whole fraction rest : Text} {negative : Bool}

theorem takeWhile_digits (digits : ∀ c ∈ whole, Text.isDecimal c = true) (stops : EndsDigits rest) :
    (whole ++ rest).takeWhile Text.isDecimal = whole
    ∧ (whole ++ rest).dropWhile Text.isDecimal = rest := by
  rw [List.takeWhile_append_of_pos digits, List.dropWhile_append_of_pos digits]
  cases rest with
  | nil => exact ⟨List.append_nil _, rfl⟩
  | cons c rest =>
    have stop : ¬ Text.isDecimal c = true := Bool.eq_false_iff.mp (stops c rfl)
    rw [List.takeWhile_cons_of_neg stop, List.dropWhile_cons_of_neg stop]
    exact ⟨List.append_nil _, rfl⟩

/-- **Reading a numeral without a point.** -/
theorem readNumeral?_plain (signed : takeSign t = (negative, whole ++ rest))
    (digits : ∀ c ∈ whole, Text.isDecimal c = true) (stops : EndsDigits rest)
    (noPoint : rest.head? ≠ some ('.' : CodePoint)) :
    readNumeral? t = if whole = [] then none
      else (readExponent? rest).map fun read => ⟨negative, whole, read.1, [], read.2⟩ := by
  obtain ⟨first, behind⟩ := takeWhile_digits digits stops
  unfold readNumeral?
  rw [signed]
  dsimp only
  rw [first, behind, beq_false_of_ne noPoint]
  simp only [Bool.false_eq_true, if_false]
  cases whole with
  | nil => rfl
  | cons c whole => cases readExponent? rest <;> rfl

/-- **Reading a numeral with a point.** -/
theorem readNumeral?_pointed
    (signed : takeSign t = (negative, whole ++ Numeral.pointed (fraction ++ rest)))
    (digits : ∀ c ∈ whole, Text.isDecimal c = true)
    (moreDigits : ∀ c ∈ fraction, Text.isDecimal c = true) (stops : EndsDigits rest) :
    readNumeral? t = if whole = [] ∧ fraction = [] then none
      else (readExponent? rest).map fun read => ⟨negative, whole, true, fraction, read.2⟩ := by
  have point : EndsDigits (Numeral.pointed (fraction ++ rest)) := by
    rintro c ⟨⟩
    exact Text.isDecimal_of_mem_numeralMarks (by decide)
  obtain ⟨first, behind⟩ := takeWhile_digits digits point
  obtain ⟨second, last⟩ := takeWhile_digits moreDigits stops
  unfold readNumeral?
  rw [signed]
  dsimp only
  have found : ((Numeral.pointed (fraction ++ rest)).head? == some ('.' : CodePoint)) = true := rfl
  have passed : (Numeral.pointed (fraction ++ rest)).drop 1 = fraction ++ rest := rfl
  rw [first, behind, found]
  simp only [if_true, passed, second, last]
  rcases whole with _ | ⟨c, whole⟩
  · rcases fraction with _ | ⟨d, fraction⟩
    · rfl
    · cases readExponent? rest <;> rfl
  · cases readExponent? rest <;> rfl

end Parts

/-- **What is read as a decimal numeral** has nothing in it that is not familiar. -/
theorem familiar_of_readNumeral? {t : Text} {d : DecimalNumeral} (h : readNumeral? t = some d) :
    ∀ c ∈ t, IsDecimalSign Text.isDecimal c := by
  intro c mem
  refine (mem_of_takeSign mem).elim (fun mem => ?_) id
  obtain ⟨negative, body, signed⟩ : ∃ negative body, takeSign t = (negative, body) := ⟨_, _, rfl⟩
  obtain ⟨whole, rest, rfl, digits, stops⟩ := exists_digits body
  rw [signed] at mem
  refine (List.mem_append.mp mem).elim (fun mem => .inl (digits c mem)) fun mem => ?_
  by_cases point : rest.head? = some ('.' : CodePoint)
  · obtain ⟨after, rfl⟩ := List.head?_eq_some_iff.mp point
    obtain ⟨fraction, tail, rfl, moreDigits, stops⟩ := exists_digits after
    rw [readNumeral?_pointed signed digits moreDigits stops] at h
    obtain ⟨read, exponent, -⟩ := Option.map_eq_some_iff.mp (Option.ite_none_left_eq_some.mp h).2
    rcases List.mem_cons.mp mem with rfl | mem
    · exact .inr (by decide)
    · exact (List.mem_append.mp mem).elim (fun mem => .inl (moreDigits c mem))
        (familiar_of_readExponent? exponent c)
  · rw [readNumeral?_plain signed digits stops point] at h
    obtain ⟨read, exponent, -⟩ := Option.map_eq_some_iff.mp (Option.ite_none_left_eq_some.mp h).2
    exact familiar_of_readExponent? exponent c mem

namespace Numeral

variable {x : Numeral} {whole : Text} {fraction? : Option Text} {exponent? : Option WrittenExponent}

/-- A decimal numeral is not taken for one of another base. -/
theorem readRadix?_decimal (h : (decimal whole fraction? exponent?).IsFormed) :
    readRadix? (decimal whole fraction? exponent?).spelling = none := by
  have signs := isDecimalSign_of_mem h
  generalize (decimal whole fraction? exponent?).spelling = t at signs
  match t with
  | [] => rfl
  | [_] => rfl
  | z :: letter :: digits =>
    rw [readRadix?, (signs letter (by simp)).radixOfLetter?_eq]
    exact ite_self none

theorem mem_spelling_of_mem_digits {c : CodePoint} (h : c ∈ x.digits) : c ∈ x.spelling := by
  cases x with
  | decimal whole fraction? exponent? =>
    rcases List.mem_append.mp h with mem | mem
    · refine List.mem_append_left _ ((List.mem_append.mp mem).elim (List.mem_append_left _) ?_)
      intro mem
      cases fraction? with
      | none => cases mem
      | some fraction => exact List.mem_append_right _ (List.mem_cons_of_mem _ mem)
    · cases exponent? with
      | none => cases mem
      | some e =>
        exact List.mem_append_right _ (List.mem_cons_of_mem _ (List.mem_append_right _ mem))
  | inBase letter digits => exact List.mem_cons_of_mem _ (List.mem_cons_of_mem _ h)

theorem isDigit_of_mem_digits (h : (decimal whole fraction? exponent?).IsFormed) :
    ∀ c ∈ (decimal whole fraction? exponent?).digits, Text.isDigit c = true := by
  obtain ⟨digits, -, formed⟩ := h
  refine List.forall_mem_append.mpr ⟨digits, ?_⟩
  cases exponent? with
  | none => exact nofun
  | some e => exact (formed e rfl).digits

/-- A formed numeral is read by the readers of numerals. -/
theorem numberOfText_spelling (h : x.IsFormed) :
    numberOfText x.spelling = match readRadix? x.spelling with
      | some n => .ok (.int n)
      | none => match readNumeral? x.spelling with
        | some d => d.value
        | none => .ok (.float notANumber) := by
  obtain ⟨c, rest, spelled, start⟩ := exists_spelling_eq_cons h
  exact numberOfText_of_start spelled start (isBlank_of_mem_spelling h)

/-- **Whoever reads finds no numeral** if there is a digit that is not familiar. -/
theorem numberOfText_of_not_isFamiliar (h : x.IsFormed) (unfamiliar : ¬ x.IsFamiliar) :
    numberOfText x.spelling = .ok (.float notANumber) := by
  obtain ⟨noRadix, c, mem, strange⟩ :
      readRadix? x.spelling = none ∧ ∃ c ∈ x.spelling, ¬ IsDecimalSign Text.isDecimal c := by
    cases x with
    | decimal whole fraction? exponent? =>
      obtain ⟨c, hc⟩ := not_forall.mp unfamiliar
      obtain ⟨mem, mark⟩ := Classical.not_imp.mp hc
      refine ⟨readRadix?_decimal h, c, mem_spelling_of_mem_digits mem, not_or.mpr ⟨mark, ?_⟩⟩
      exact Text.not_mem_of_isDigit (isDigit_of_mem_digits h c mem) mem_numeralMarks
    | inBase letter digits =>
      obtain ⟨base, announced, -⟩ := h
      refine ⟨?_, letter, List.mem_cons_of_mem _ List.mem_cons_self, ?_⟩
      · have foreign : isAscii digits = false := by
          rw [Bool.eq_false_iff, isAscii, ne_eq, List.all_eq_true]
          exact fun ascii => unfamiliar fun c mem => of_decide_eq_true (ascii c mem)
        rw [spelling, readRadix?, foreign, Bool.and_false]
        rfl
      · have marks : ∀ c ∈ ("xXoObB" : Text), c ∈ Text.numeralMarks ∧ c ∉ (".eE+-" : Text) := by
          decide
        obtain ⟨mark, other⟩ := marks letter (mem_of_radixOfLetter? announced)
        exact not_or.mpr ⟨Bool.eq_false_iff.mp (Text.isDecimal_of_mem_numeralMarks mark), other⟩
  have noNumeral : readNumeral? x.spelling = none :=
    Option.eq_none_iff_forall_ne_some.mpr fun d read =>
      strange (familiar_of_readNumeral? read c mem)
  rw [numberOfText_spelling h, noRadix, noNumeral]

theorem takeSign_of_head? {t : Text} (unsigned : ∀ c ∈ t.head?, c ∉ ("+-" : Text)) :
    takeSign t = (false, t) := by
  cases t with
  | nil => rfl
  | cons c rest =>
    have noSign := unsigned c rfl
    rw [takeSign, if_neg, if_neg]
    · exact fun plus => noSign (beq_iff_eq.mp plus ▸ by decide)
    · exact fun minus => noSign (beq_iff_eq.mp minus ▸ by decide)

/-- **Reading a written exponent.** -/
theorem readExponent?_spelling {e : WrittenExponent} (h : e.IsFormed)
    (familiar : ∀ c ∈ e.digits, Text.isDecimal c = true) :
    readExponent? e.spelling = some (true, e.value) := by
  have signed : takeSign (e.sign ++ e.digits) = (decide (e.sign = "-"), e.digits) := by
    rcases h.sign with none | plus | minus
    · rw [none]
      exact takeSign_of_head? fun c head =>
        Text.not_mem_of_isDigit (h.digits c (List.mem_of_head? head)) (by decide)
    · rw [plus]
      rfl
    · rw [minus]
      rfl
  have letter : (e.letter == 'e' || e.letter == 'E') = true :=
    Bool.or_eq_true_iff.mpr (h.letter.imp beq_iff_eq.mpr beq_iff_eq.mpr)
  rw [WrittenExponent.spelling, readExponent?, if_pos letter, signed]
  dsimp only
  rw [List.isEmpty_eq_false_iff.mpr h.ne_nil, List.all_eq_true.mpr familiar, if_neg nofun,
    Text.valueOfDecimals_eq familiar, WrittenExponent.value]
  by_cases minus : e.sign = "-"
  · rw [if_pos minus, decide_eq_true minus, if_pos rfl]
  · rw [if_neg minus, decide_eq_false minus, if_neg nofun]

/-- **Reading the exponent that may end a numeral.** -/
theorem readExponent?_elim (formed : ∀ e ∈ exponent?, e.IsFormed)
    (familiar : ∀ c ∈ exponent?.elim [] WrittenExponent.digits, Text.isDecimal c = true) :
    readExponent? (exponent?.elim [] WrittenExponent.spelling)
      = some (exponent?.isSome, exponent?.elim 0 WrittenExponent.value) := by
  cases exponent? with
  | none => rfl
  | some e => exact readExponent?_spelling (formed e rfl) familiar

/-- The exponent that may end a numeral begins with a letter. -/
theorem head?_elim_spelling (formed : ∀ e ∈ exponent?, e.IsFormed) :
    ∀ c ∈ (exponent?.elim [] WrittenExponent.spelling).head?, c = 'e' ∨ c = 'E' := by
  cases exponent? with
  | none => exact nofun
  | some e =>
    rintro c ⟨⟩
    exact (formed e rfl).letter

/-- **Reading a decimal numeral** whose digits are familiar gives its parts. -/
theorem readNumeral?_decimal (h : (decimal whole fraction? exponent?).IsFormed)
    (familiar : (decimal whole fraction? exponent?).IsFamiliar) :
    readNumeral? (decimal whole fraction? exponent?).spelling =
      some ⟨false, whole, fraction?.isSome || exponent?.isSome, fraction?.getD [],
        exponent?.elim 0 WrittenExponent.value⟩ := by
  have unsigned : takeSign (decimal whole fraction? exponent?).spelling
      = (false, (decimal whole fraction? exponent?).spelling) := by
    obtain ⟨c, rest, spelled, start⟩ := exists_spelling_eq_cons h
    refine takeSign_of_head? fun d head => ?_
    rw [spelled] at head
    obtain rfl := Option.some.inj head
    rcases start with digit | rfl
    · exact Text.not_mem_of_isDigit digit (by decide)
    · decide
  obtain ⟨-, some, formed⟩ := h
  obtain ⟨digits, exponentDigits⟩ := List.forall_mem_append.mp familiar
  obtain ⟨wholeDigits, fractionDigits⟩ := List.forall_mem_append.mp digits
  have letter := head?_elim_spelling formed
  have stops : EndsDigits (exponent?.elim [] WrittenExponent.spelling) := fun c head => by
    obtain rfl | rfl := letter c head <;> exact Text.isDecimal_of_mem_numeralMarks (by decide)
  have read := readExponent?_elim formed exponentDigits
  cases fraction? with
  | none =>
    have noPoint : (exponent?.elim [] WrittenExponent.spelling).head?
        ≠ .some ('.' : CodePoint) := by
      intro head
      obtain same | same := letter _ head <;> cases same
    have plain : (decimal whole none exponent?).spelling
        = whole ++ exponent?.elim [] WrittenExponent.spelling :=
      congrArg (· ++ _) (List.append_nil whole)
    rw [plain] at unsigned ⊢
    rw [readNumeral?_plain unsigned wholeDigits stops noPoint, read, if_neg]
    · rfl
    · exact fun empty => some (by rw [empty]; rfl)
  | some fraction =>
    have pointed : (decimal whole (.some fraction) exponent?).spelling
        = whole ++ Numeral.pointed (fraction ++ exponent?.elim [] WrittenExponent.spelling) :=
      List.append_assoc ..
    rw [pointed] at unsigned ⊢
    rw [readNumeral?_pointed unsigned wholeDigits fractionDigits stops, read, if_neg]
    · rfl
    · rintro ⟨rfl, rfl⟩
      exact some rfl

/-- A numeral of another base **is read as its value**. -/
theorem numberOfText_inBase {letter : CodePoint} {digits : Text}
    (h : (inBase letter digits).IsFormed) (familiar : (inBase letter digits).IsFamiliar) :
    numberOfText (inBase letter digits).spelling = .ok (inBase letter digits).value := by
  have read := numberOfText_spelling h
  obtain ⟨base, announced, fits⟩ := h
  have ascii : isAscii digits = true :=
    List.all_eq_true.mpr fun c mem => decide_eq_true (familiar c mem)
  have integer : readRadix? (inBase letter digits).spelling = some (digits.worth base : Int) := by
    rw [spelling, readRadix?, ascii, announced]
    exact Text.intOfRadix?_eq_some_iff.mpr ⟨fits, rfl⟩
  rw [read, integer, value, announced]
  rfl

/-- A decimal numeral is read part by part. -/
theorem numberOfText_decimal (h : (decimal whole fraction? exponent?).IsFormed)
    (familiar : (decimal whole fraction? exponent?).IsFamiliar) :
    numberOfText (decimal whole fraction? exponent?).spelling = DecimalNumeral.value
      ⟨false, whole, fraction?.isSome || exponent?.isSome, fraction?.getD [],
        exponent?.elim 0 WrittenExponent.value⟩ := by
  rw [numberOfText_spelling h, readRadix?_decimal h, readNumeral?_decimal h familiar]

/-- A numeral with a point or an exponent **is read as its value**, the nearest float. -/
theorem numberOfText_float (h : (decimal whole fraction? exponent?).IsFormed)
    (familiar : (decimal whole fraction? exponent?).IsFamiliar)
    (float : (fraction?.isSome || exponent?.isSome) = true) :
    numberOfText (decimal whole fraction? exponent?).spelling
      = .ok (decimal whole fraction? exponent?).value := by
  have digits := (List.forall_mem_append.mp familiar).1
  rw [numberOfText_decimal h familiar, DecimalNumeral.value, float, if_pos rfl,
    Text.valueOfDecimals_eq digits]
  dsimp only
  rw [floatOfDecimal_eq]
  cases fraction? with
  | some fraction => rfl
  | none =>
    cases exponent? with
    | some e => rfl
    | none => cases float

/-- A row of digits **is read as its value** unless it is overlong. -/
theorem numberOfText_row (h : (decimal whole none none).IsFormed)
    (familiar : (decimal whole none none).IsFamiliar) :
    (¬ (decimal whole none none).IsOverlong →
      numberOfText (decimal whole none none).spelling = .ok (decimal whole none none).value)
    ∧ ((decimal whole none none).IsOverlong →
      ∃ u, numberOfText (decimal whole none none).spelling = .error u) := by
  have some : whole ≠ [] := fun empty => h.2.1 (by rw [empty]; rfl)
  have digits : ∀ c ∈ whole, Text.isDecimal c = true := fun c mem =>
    familiar c (List.mem_append_left _ (List.mem_append_left _ mem))
  rw [numberOfText_decimal h familiar, DecimalNumeral.value, if_neg nofun, intOfDigits]
  refine ⟨fun short => ?_, fun long => ?_⟩
  · have allowed : (Demand.digits whole).isExcessive = false := by
      rw [Demand.isExcessive, decide_eq_false (show ¬ digitLimit < whole.length from short),
        List.isEmpty_eq_false_iff.mpr some, List.all_eq_true.mpr digits]
      rfl
    rw [Demand.meet_of_allowed allowed, Text.valueOfDecimals_eq digits]
    rfl
  · have excessive : (Demand.digits whole).isExcessive = true := by
      rw [Demand.isExcessive, decide_eq_true (show digitLimit < whole.length from long),
        Bool.or_true, Bool.true_or]
    rw [Demand.meet_of_excessive excessive]
    exact ⟨_, rfl⟩

/-- **A numeral is read as its value** if its digits are familiar and not too many; if they are too
many, it has none. -/
theorem numberOfText_of_isFamiliar (h : x.IsFormed) (familiar : x.IsFamiliar) :
    (¬ x.IsOverlong → numberOfText x.spelling = .ok x.value)
    ∧ (x.IsOverlong → ∃ u, numberOfText x.spelling = .error u) := by
  match x with
  | inBase letter digits => exact ⟨fun _ => numberOfText_inBase h familiar, False.elim⟩
  | decimal whole none none => exact numberOfText_row h familiar
  | decimal whole (some fraction) exponent? =>
    exact ⟨fun _ => numberOfText_float h familiar rfl, False.elim⟩
  | decimal whole none (some e) => exact ⟨fun _ => numberOfText_float h familiar rfl, False.elim⟩

/-- **The value of a numeral is a number.** -/
theorem isNaN_value {f : Float} (h : x.value = .float f) : f.isNaN = false := by
  match x with
  | inBase letter digits => cases h
  | decimal whole none none =>
    rw [value, Number.normalize] at h
    split at h
    · obtain rfl := Number.float.inj h
      exact Binary64.isNaN_nearest _ _ _
    · cases h
  | decimal whole (some fraction) exponent? =>
    obtain rfl := Number.float.inj h
    exact Binary64.isNaN_nearest _ _ _
  | decimal whole none (some e) =>
    obtain rfl := Number.float.inj h
    exact Binary64.isNaN_nearest _ _ _

/-- **Evaluating a literal** that is spelled by a numeral. -/
theorem literal_spelling (h : x.IsFormed) (place : Position) (s : Store) :
    (x.IsFamiliar → ¬ x.IsOverlong →
      Walk.literal [.leaf .number x.spelling place] s = .ok (.number x.value) s)
    ∧ (x.IsFamiliar → x.IsOverlong →
      ∃ u, Walk.literal [.leaf .number x.spelling place] s = .error (.fault (.unmet u)) s)
    ∧ (¬ x.IsFamiliar →
      Walk.literal [.leaf .number x.spelling place] s = .ok (.number (.float notANumber)) s) := by
  have evaluated : Walk.literal [.leaf .number x.spelling place] s
      = (Value.number <$> Step.ofExcept (numberOfText x.spelling) : Step Value) s := rfl
  rw [evaluated]
  refine ⟨fun familiar short => ?_, fun familiar long => ?_, fun strange => ?_⟩
  · rw [(numberOfText_of_isFamiliar h familiar).1 short]
    rfl
  · obtain ⟨u, fault⟩ := (numberOfText_of_isFamiliar h familiar).2 long
    rw [fault]
    exact ⟨u, rfl⟩
  · rw [numberOfText_of_not_isFamiliar h strange]
    rfl

end Numeral

/-! ## Tokens of numbers -/

/-- **The tokens of numbers are spelled by numerals**, and their literals are evaluated to the
values of these. There are two ways to fail: a row of too many digits is a fault, and where there
are digits that the readers of numerals do not know, there is no number. -/
theorem tokenize_numerals {source : Text} {line : Int} {tokens : List Token}
    (h : tokenize source line = .ok tokens) :
    ∀ t ∈ tokens, t.kind = .number → ∃ x : Numeral, x.IsFormed ∧ t.text = x.spelling
      ∧ (∀ f, x.value = .float f → f.isNaN = false)
      ∧ ∀ place s,
        (x.IsFamiliar → ¬ x.IsOverlong →
          Walk.literal [.leaf .number t.text place] s = .ok (.number x.value) s)
        ∧ (x.IsFamiliar → x.IsOverlong →
          ∃ u, Walk.literal [.leaf .number t.text place] s = .error (.fault (.unmet u)) s)
        ∧ (¬ x.IsFamiliar →
          Walk.literal [.leaf .number t.text place] s = .ok (.number (.float notANumber)) s) := by
  refine forall_of_tokenize
    (fun {allowed c rest kind n} found line column newlineBefore number => ?_)
    (fun _ _ _ => nofun) h
  obtain rfl : kind = .number := number
  obtain ⟨start, measured⟩ := (scan_measured found).2.1 rfl
  obtain ⟨x, formed, spelled⟩ := exists_numeral start measured
  exact ⟨x, formed, spelled, fun f => x.isNaN_value,
    fun place s => (show keptText .number ((c :: rest).take n) = x.spelling from spelled) ▸
      x.literal_spelling formed place s⟩

/-- A text with three numbers. -/
theorem tokenize_numerals_of_sum :
    ∃ tokens, tokenize "0x1F+.5e-3+7" 1 = .ok tokens
      ∧ (tokens.filter (·.kind = .number)).map Token.text = ["0x1F", ".5e-3", "7"]
      ∧ ∀ t ∈ tokens, t.kind = .number → ∃ x : Numeral, x.IsFormed ∧ t.text = x.spelling
        ∧ (∀ f, x.value = .float f → f.isNaN = false)
        ∧ ∀ place s,
          (x.IsFamiliar → ¬ x.IsOverlong →
            Walk.literal [.leaf .number t.text place] s = .ok (.number x.value) s)
          ∧ (x.IsFamiliar → x.IsOverlong →
            ∃ u, Walk.literal [.leaf .number t.text place] s = .error (.fault (.unmet u)) s)
          ∧ (¬ x.IsFamiliar →
            Walk.literal [.leaf .number t.text place] s = .ok (.number (.float notANumber)) s) := by
  have cut : (tokenize "0x1F+.5e-3+7" 1).toOption = some
      [⟨.number, "0x1F", 1, 1, false⟩, ⟨.operator, "+", 1, 5, false⟩,
        ⟨.number, ".5e-3", 1, 6, false⟩, ⟨.operator, "+", 1, 11, false⟩,
        ⟨.number, "7", 1, 12, false⟩, ⟨.endOfText, [], 1, 13, false⟩] := by decide +kernel
  exact ⟨_, Except.eq_ok_of_toOption cut, by decide,
    tokenize_numerals (Except.eq_ok_of_toOption cut)⟩

/-- **A digit of another script** in a number of base sixteen: the text is cut, the digit is worth
three, and yet there is no number. -/
theorem not_number_of_foreign_digit :
    ∃ tokens t, tokenize [0x30, 0x78, 0x663] 1 = .ok tokens ∧ t ∈ tokens ∧ t.kind = .number
      ∧ (Numeral.inBase 'x' [0x663]).IsFormed ∧ t.text = (Numeral.inBase 'x' [0x663]).spelling
      ∧ (Numeral.inBase 'x' [0x663]).value = .int 3
      ∧ notANumber.isNaN = true
      ∧ ∀ place s, Walk.literal [.leaf .number t.text place] s
          = .ok (.number (.float notANumber)) s := by
  have cut : (tokenize [0x30, 0x78, 0x663] 1).toOption = some
      [⟨.number, [0x30, 0x78, 0x663], 1, 1, false⟩, ⟨.endOfText, [], 1, 4, false⟩] := by
    decide +kernel
  obtain ⟨digit, worth, isNaN⟩ : Text.digitValue? 0x663 = some 3
      ∧ (Text.worth 16 [0x663] : Int) = 3 ∧ notANumber.isNaN = true := by decide +kernel
  have formed : (Numeral.inBase 'x' [0x663]).IsFormed :=
    ⟨16, by decide, List.cons_ne_nil _ _, List.forall_mem_singleton.mpr ⟨3, by decide, digit⟩⟩
  have strange : ¬ (Numeral.inBase 'x' [0x663]).IsFamiliar := fun familiar =>
    absurd (familiar 0x663 List.mem_cons_self) (by decide)
  exact ⟨_, _, Except.eq_ok_of_toOption cut, List.mem_cons_self, rfl, formed, rfl,
    congrArg Number.int worth, isNaN,
    fun place s => (Numeral.literal_spelling formed place s).2.2 strange⟩

end Scriptlet
