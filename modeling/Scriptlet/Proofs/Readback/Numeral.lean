import Mathlib.Data.List.TakeWhile
import Scriptlet.Number.Numeral

/-!
# Numerals of integers as literals

An integer is written with the digits 0 to 9, and these are read by code that knows the
digits of every script, blanks, signs, points, exponents and numerals of other bases. For
the digits of an integer nothing of all this comes into play, and the number that is read
is the integer, as long as it is in the safe range.
-/

namespace Scriptlet

/-! ## The digits 0 to 9 -/

/-- What the digits 0 to 9 are to the code that reads numerals. -/
structure IsFigure (c : CodePoint) : Prop where
  /-- Its value is its distance from zero. -/
  value : Text.decimalValue? c = some (c - 0x30)
  /-- It is no blank. -/
  notBlank : Text.isBlank c = false
  /-- It announces no other base. -/
  noRadix : radixOfLetter? c = none
  /-- It is no sign and starts no word for an infinity. -/
  notSign : c ∉ ("+-I" : Text)

theorem isFigure_of_isPlainDigit {c : CodePoint} (h : Text.isPlainDigit c = true) : IsFigure c := by
  have listed : ∀ c < 0x3A, Text.isPlainDigit c = true →
      Text.decimalValue? c = some (c - 0x30) ∧ Text.isBlank c = false ∧ radixOfLetter? c = none
        ∧ c ∉ ("+-I" : Text) := by decide +kernel
  have small : c ≤ 0x39 := of_decide_eq_true (Bool.and_eq_true_iff.mp h).2
  obtain ⟨value, notBlank, noRadix, notSign⟩ := listed c (Nat.lt_succ_of_le small) h
  exact ⟨value, notBlank, noRadix, notSign⟩

/-- A text without blanks is kept when it is trimmed. -/
theorem Text.trim_of_notBlank {t : Text} (h : ∀ c ∈ t, isBlank c = false) : t.trim = t := by
  have kept {u : Text} (hu : ∀ c ∈ u, isBlank c = false) : u.dropWhile isBlank = u := by
    cases u with
    | nil => rfl
    | cons c u => exact List.dropWhile_cons_of_neg (by rw [hu c List.mem_cons_self]; exact nofun)
  have reversed : ∀ c ∈ t.reverse, isBlank c = false := fun c hc => h c (List.mem_reverse.mp hc)
  rw [Text.trim, Text.trimBoth, Text.trimLeft, Text.trimRight, kept h, kept reversed,
    List.reverse_reverse]

/-- A text **of figures** has nothing else in it. -/
def Text.OfFigures (t : Text) : Prop :=
  ∀ c ∈ t, Text.isPlainDigit c = true

namespace Text.OfFigures

variable {t : Text}

theorem isDecimal (h : t.OfFigures) : ∀ c ∈ t, Text.isDecimal c = true := fun c hc => by
  rw [Text.isDecimal, (isFigure_of_isPlainDigit (h c hc)).value]
  rfl

theorem trim_eq (h : t.OfFigures) : t.trim = t :=
  trim_of_notBlank fun c hc => (isFigure_of_isPlainDigit (h c hc)).notBlank

theorem readRadix?_eq (h : t.OfFigures) : readRadix? t = none := by
  match t, h with
  | [], _ => rfl
  | [_], _ => rfl
  | z :: letter :: digits, h =>
    have noRadix := (isFigure_of_isPlainDigit (h letter (by simp))).noRadix
    show (if (z == '0'.toNat && isAscii digits) = true
      then (radixOfLetter? letter).bind (intOfRadix? · digits) else none) = none
    rw [noRadix]
    exact ite_self none

theorem takeSign_eq (h : t.OfFigures) : takeSign t = (false, t) := by
  cases t with
  | nil => rfl
  | cons c t =>
    have notSign := (isFigure_of_isPlainDigit (h c List.mem_cons_self)).notSign
    rw [takeSign, if_neg, if_neg]
    · exact fun same => notSign (by rw [beq_iff_eq.mp same]; decide)
    · exact fun same => notSign (by rw [beq_iff_eq.mp same]; decide)

/-- No word for an infinity is written with figures. -/
theorem ne_word (h : t.OfFigures) {c : CodePoint} {word : Text} (hc : c ∈ ("+-I" : Text)) :
    (t == c :: word) = false := by
  refine beq_eq_false_iff_ne.mpr fun same => ?_
  rw [same] at h
  exact (isFigure_of_isPlainDigit (h c List.mem_cons_self)).notSign hc

theorem readNumeral?_eq (h : t.OfFigures) (some : t ≠ []) :
    readNumeral? t = Option.some ⟨false, t, false, [], 0⟩ := by
  have whole : t.takeWhile Text.isDecimal = t := List.takeWhile_eq_self_iff.mpr h.isDecimal
  have rest : t.dropWhile Text.isDecimal = [] := List.dropWhile_eq_nil_iff.mpr h.isDecimal
  have notEmpty : t.isEmpty = false := by
    cases t with
    | nil => exact absurd rfl some
    | cons c t => rfl
  unfold readNumeral?
  rw [h.takeSign_eq]
  dsimp only
  rw [whole, rest, notEmpty]
  rfl

end Text.OfFigures

/-! ## Integers -/

theorem Text.ofNat_eq (n : Nat) : Text.ofNat n = (Nat.toDigits 10 n).map Char.toNat := by
  rw [Text.ofNat, Text.ofString, Nat.toString_eq_repr, Nat.toList_repr]

theorem Text.ofNat_ne_nil (n : Nat) : Text.ofNat n ≠ [] := by
  rw [Text.ofNat_eq]
  exact fun none => Nat.toDigits_ne_nil (List.map_eq_nil_iff.mp none)

theorem Text.isPlainDigit_of_isDigit {digit : Char} (h : digit.isDigit = true) :
    isPlainDigit digit.toNat = true := by
  rw [Char.isDigit_iff_toNat] at h
  exact Bool.and_eq_true_iff.mpr ⟨decide_eq_true h.1, decide_eq_true h.2⟩

/-- **A natural number is written with figures.** -/
theorem Text.ofFigures_ofNat (n : Nat) : (Text.ofNat n).OfFigures := by
  intro c hc
  rw [Text.ofNat_eq] at hc
  obtain ⟨digit, hdigit, rfl⟩ := List.mem_map.mp hc
  exact isPlainDigit_of_isDigit (Nat.isDigit_of_mem_toDigits (by decide) (by decide) hdigit)

/-- A number is written with as many digits as its size takes. -/
theorem Text.length_ofNat_le_of_lt {n digits : Nat} (some : 0 < digits) (h : n < tenTo digits) :
    (Text.ofNat n).length ≤ digits := by
  rw [Text.ofNat_eq, List.length_map]
  exact (Nat.length_toDigits_le_iff (by decide) some).mpr h

/-- A numeral is not too long to be converted, if the number is not beyond the safe range. -/
theorem Text.length_ofNat_le {n : Nat} (h : n ≤ maxSafeInteger) :
    (Text.ofNat n).length ≤ digitLimit :=
  have short : (Text.ofNat n).length ≤ 16 :=
    length_ofNat_le_of_lt (by decide) (Nat.lt_of_le_of_lt h (by decide))
  Nat.le_trans short (by decide)

/-- An integer is written as its magnitude, behind a sign if it is negative. -/
theorem Text.ofInt_eq (n : Int) :
    Text.ofInt n = if 0 ≤ n then Text.ofNat n.natAbs else '-'.toNat :: Text.ofNat n.natAbs := by
  rw [Text.ofInt, Int.toString_eq_repr, Int.repr_eq_if]
  split
  · rename_i natural
    rw [← Int.natAbs_of_nonneg natural, Int.toNat_natCast]
    rfl
  · rename_i negative
    have magnitude : (-n).toNat = n.natAbs := by omega
    rw [magnitude, Text.ofString, String.toList_append, List.map_append]
    rfl

/-- **The digits of a number have its value.** -/
theorem valueOfDecimals_ofNat (n : Nat) : valueOfDecimals (Text.ofNat n) = n := by
  have steps {next : Nat → CodePoint → Nat} (adds : ∀ n (digit : Char), digit.isDigit = true →
      next n digit.toNat = 10 * n + (digit.toNat - '0'.toNat)) (digits : List Char)
      (plain : ∀ digit ∈ digits, digit.isDigit = true) (start : Nat) :
      (digits.map Char.toNat).foldl next start = Nat.ofDigitChars 10 digits start := by
    induction digits generalizing start with
    | nil => rfl
    | cons digit digits ih =>
      obtain ⟨first, more⟩ := List.forall_mem_cons.mp plain
      rw [List.map_cons, List.foldl_cons, Nat.ofDigitChars_cons, ih more, adds _ _ first]
  have plain : ∀ digit ∈ Nat.toDigits 10 n, digit.isDigit = true := fun digit hdigit =>
    Nat.isDigit_of_mem_toDigits (by decide) (by decide) hdigit
  rw [Text.ofNat_eq, valueOfDecimals, steps (fun n digit isDigit => ?_) _ plain]
  · exact Nat.ofDigitChars_toDigits (by decide) (by decide)
  · rw [(isFigure_of_isPlainDigit (Text.isPlainDigit_of_isDigit isDigit)).value]
    rfl

/-- Figures are read as a numeral without sign, point or exponent. -/
theorem Text.OfFigures.numberOfText_eq {t : Text} (h : t.OfFigures) (some : t ≠ []) :
    numberOfText t = Number.normalize <$> Number.int <$> intOfDigits t := by
  have infinite {c : CodePoint} {word : Text} (hc : c ∈ ("+-I" : Text)) :
      ¬ (t == c :: word) = true := by
    rw [h.ne_word hc]
    exact nofun
  have noInfinity : ¬ (t == "Infinity" || t == "+Infinity") = true :=
    fun either => (Bool.or_eq_true_iff.mp either).elim (infinite (by decide)) (infinite (by decide))
  have noNegative : ¬ (t == "-Infinity") = true := infinite (by decide)
  unfold numberOfText
  dsimp only
  rw [h.trim_eq, List.isEmpty_eq_false_iff.mpr some, if_neg nofun, h.readRadix?_eq]
  dsimp only
  rw [if_neg noInfinity, if_neg noNegative, h.readNumeral?_eq some]
  show DecimalNumeral.value ⟨false, t, false, [], 0⟩ = _
  unfold DecimalNumeral.value
  rw [if_neg nofun]
  cases intOfDigits t <;> rfl

/-- **The numeral of a number in the safe range is read as the number.** -/
theorem numberOfText_ofNat {n : Nat} (h : n ≤ maxSafeInteger) :
    numberOfText (Text.ofNat n) = .ok (.int n) := by
  have figures := Text.ofFigures_ofNat n
  have notEmpty : (Text.ofNat n).isEmpty = false := by
    rw [List.isEmpty_eq_false_iff]
    exact Text.ofNat_ne_nil n
  have allowed : (Demand.digits (Text.ofNat n)).isExcessive = false := by
    have decimal : (Text.ofNat n).all Text.isDecimal = true := List.all_eq_true.mpr figures.isDecimal
    rw [Demand.isExcessive, notEmpty, decimal, decide_eq_false (Nat.not_lt_of_le (Text.length_ofNat_le h))]
    rfl
  have digits : intOfDigits (Text.ofNat n) = .ok (n : Int) := by
    rw [intOfDigits, Demand.meet_of_allowed allowed, valueOfDecimals_ofNat]
    rfl
  rw [figures.numberOfText_eq (Text.ofNat_ne_nil n), digits]
  show Except.ok (Number.normalize (.int n)) = _
  rw [Number.normalize, if_neg (by rw [Int.natAbs_natCast]; exact Nat.not_lt_of_le h)]

/-- An integer can be written if its numeral is not too long. -/
theorem numeralOfInt_of_length {n : Int} (short : (Text.ofNat n.natAbs).length ≤ digitLimit) :
    numeralOfInt n = .ok (Text.ofInt n) := by
  have allowed : (Demand.numeral n).isExcessive = false := by
    refine decide_eq_false (Nat.not_lt_of_le ?_)
    rw [Text.ofInt_eq]
    by_cases natural : 0 ≤ n
    · rw [if_pos natural]
      exact Nat.le_trans (Nat.sub_le _ _) short
    · rw [if_neg natural, if_pos (by omega), List.length_cons, Nat.add_sub_cancel]
      exact short
  rw [numeralOfInt, Demand.meet_of_allowed allowed]
  rfl

/-- An integer in the safe range can be written. -/
theorem numeralOfInt_eq {n : Int} (h : n.natAbs ≤ maxSafeInteger) :
    numeralOfInt n = .ok (Text.ofInt n) :=
  numeralOfInt_of_length (Text.length_ofNat_le h)

end Scriptlet
