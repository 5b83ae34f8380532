import Mathlib.Data.List.TakeWhile
import Scriptlet.Proofs.Denotation.Digit
import Scriptlet.Proofs.Denotation.Saturation
import Scriptlet.Proofs.Measure

/-!
# Numerals

A numeral has parts, which are spelled one after the other, and it has a value. Neither depends on
how numerals are found in texts or how they are read: the value is worked out from the digits of
the parts, and the float nearest to a decimal is the one nearest to the number itself, however large
its exponent.

What is cut off a text as a number is spelled by a numeral: the lengths that are measured, of
digits, of a point with digits behind it and of an exponent, are those of its parts.
-/

namespace Scriptlet

/-! ## Numerals -/

/-- An **exponent** as it is written: a letter, a sign or none, and digits. -/
structure WrittenExponent where
  letter : CodePoint
  sign : Text
  digits : Text

/-- A **numeral** in its parts. -/
inductive Numeral where
  /-- Digits, a point with digits behind it, and an exponent; the latter two may be missing. -/
  | decimal (whole : Text) (fraction? : Option Text) (exponent? : Option WrittenExponent)
  /-- A zero, the letter of a base, and digits. -/
  | inBase (letter : CodePoint) (digits : Text)

namespace WrittenExponent

/-- How an exponent is **spelled**. -/
def spelling (e : WrittenExponent) : Text :=
  e.letter :: (e.sign ++ e.digits)

/-- The **power** that an exponent stands for. -/
def value (e : WrittenExponent) : Int :=
  if e.sign = "-" then -(e.digits.worth 10) else e.digits.worth 10

/-- Whether an exponent is written as it should be. -/
structure IsFormed (e : WrittenExponent) : Prop where
  letter : e.letter = 'e' ∨ e.letter = 'E'
  sign : e.sign = [] ∨ e.sign = "+" ∨ e.sign = "-"
  digits : ∀ c ∈ e.digits, Text.isDigit c = true
  ne_nil : e.digits ≠ []

end WrittenExponent

namespace Numeral

/-- How a point and the digits behind it are spelled. -/
def pointed (fraction : Text) : Text :=
  ('.' : CodePoint) :: fraction

/-- How a numeral is **spelled**. -/
def spelling : Numeral → Text
  | decimal whole fraction? exponent? =>
    whole ++ fraction?.elim [] pointed ++ exponent?.elim [] WrittenExponent.spelling
  | inBase letter digits => '0' :: letter :: digits

/-- The **digits** of a numeral. -/
def digits : Numeral → Text
  | decimal whole fraction? exponent? =>
    whole ++ fraction?.getD [] ++ exponent?.elim [] WrittenExponent.digits
  | inBase _ digits => digits

/-- Whether a numeral is written as it should be. -/
def IsFormed : Numeral → Prop
  | decimal whole fraction? exponent? =>
    (∀ c ∈ whole ++ fraction?.getD [], Text.isDigit c = true) ∧ whole ++ fraction?.getD [] ≠ []
      ∧ ∀ e ∈ exponent?, e.IsFormed
  | inBase letter digits => ∃ base, radixOfLetter? letter = some base ∧ digits.Fits base

/-- The **value** of a numeral: an integer, or the float nearest to the number. A decimal numeral
has the former if there is neither a point nor an exponent, and if it is in the safe range. -/
def value : Numeral → Number
  | decimal whole none none => Number.normalize (.int (whole.worth 10))
  | decimal whole fraction? exponent? =>
    .float (nearestToDecimal (Text.worth 10 (whole ++ fraction?.getD []))
      (exponent?.elim 0 WrittenExponent.value - (fraction?.getD []).length))
  | inBase letter digits => .int (digits.worth ((radixOfLetter? letter).getD 10))

/-- Whether the digits are **familiar** to those who read numerals: decimal digits of any script,
and in other bases than ten those of ASCII. -/
def IsFamiliar : Numeral → Prop
  | x@(decimal ..) => ∀ c ∈ x.digits, Text.isDecimal c = true
  | inBase _ digits => ∀ c ∈ digits, c < 128

/-- Whether there are **too many** digits to be converted to an integer. -/
def IsOverlong : Numeral → Prop
  | decimal whole none none => digitLimit < whole.length
  | _ => False

end Numeral

/-! ## Cutting -/

theorem exists_sign (t : Text) :
    ∃ n, (if headIs (fun c => c == '+' || c == '-') t then 1 else 0) = n
      ∧ (t.take n = [] ∨ t.take n = "+" ∨ t.take n = "-") := by
  refine ⟨_, rfl, ?_⟩
  split
  · rename_i signed
    cases t with
    | nil => cases signed
    | cons c rest =>
      obtain plus | minus := Bool.or_eq_true_iff.mp signed
      · exact .inr (.inl (beq_iff_eq.mp plus ▸ rfl))
      · exact .inr (.inr (beq_iff_eq.mp minus ▸ rfl))
  · exact .inl rfl

theorem exists_exponent (t : Text) :
    ∃ exponent? : Option WrittenExponent, (∀ e ∈ exponent?, e.IsFormed)
      ∧ t.take (exponentLength t) = exponent?.elim [] WrittenExponent.spelling := by
  by_cases missing : exponentLength t = 0
  · rw [missing]
    exact ⟨none, nofun, rfl⟩
  · unfold exponentLength at missing ⊢
    cases t with
    | nil => exact absurd rfl missing
    | cons c rest =>
      obtain ⟨n, sign, signed⟩ := exists_sign rest
      rw [List.drop_one, List.tail_cons, sign] at missing ⊢
      dsimp only at missing ⊢
      rw [Nat.add_comm 1 n, List.drop_succ_cons] at missing ⊢
      by_cases letter : headIs (fun c => c == 'e' || c == 'E') (c :: rest) = true
      · rw [if_pos letter] at missing ⊢
        by_cases empty : (countWhile Text.isDigit (rest.drop n) == 0) = true
        · rw [if_pos empty] at missing
          exact absurd rfl missing
        · rw [if_neg empty]
          refine ⟨some ⟨c, rest.take n, (rest.drop n).takeWhile Text.isDigit⟩, ?_, ?_⟩
          · rintro e ⟨⟩
            refine ⟨?_, signed, fun d mem => List.mem_takeWhile_imp mem, fun none => empty ?_⟩
            · exact (Bool.or_eq_true_iff.mp letter).imp beq_iff_eq.mp beq_iff_eq.mp
            · exact beq_iff_eq.mpr (List.length_eq_zero_iff.mpr none)
          · rw [Nat.add_right_comm, List.take_succ_cons, List.take_add, take_countWhile]
            rfl
      · rw [if_neg letter] at missing
        exact absurd rfl missing

/-- The digits behind a point, if there is one. -/
def fractionOf? (t : Text) : Option Text :=
  if headIs (· == '.') t then some ((t.drop 1).takeWhile Text.isDigit) else none

theorem take_fractionLength (t : Text) :
    t.take (fractionLength t) = (fractionOf? t).elim [] Numeral.pointed := by
  unfold fractionLength fractionOf?
  cases t with
  | nil => rfl
  | cons c rest =>
    split
    · rename_i point
      obtain rfl : c = '.' := beq_iff_eq.mp point
      rw [Nat.add_comm, List.take_succ_cons, List.drop_one, List.tail_cons, take_countWhile]
      rfl
    · rfl

theorem isDigit_of_mem_fractionOf? {t : Text} {c : CodePoint} (h : c ∈ (fractionOf? t).getD []) :
    Text.isDigit c = true := by
  unfold fractionOf? at h
  split at h
  · exact List.mem_takeWhile_imp h
  · cases h

theorem exists_decimal {c : CodePoint} {rest : Text}
    (start : (Text.isDigit c || (c == '.' && headIs Text.isDigit rest)) = true) :
    ∃ x : Numeral, x.IsFormed ∧ (c :: rest).take (decimalLength (c :: rest)) = x.spelling := by
  rw [decimalLength_eq]
  obtain ⟨behind, hbehind⟩ :
    ∃ t, (c :: rest).drop (countWhile Text.isDigit (c :: rest)) = t := ⟨_, rfl⟩
  obtain ⟨exponent?, formed, hexponent⟩ := exists_exponent (behind.drop (fractionLength behind))
  refine ⟨.decimal ((c :: rest).takeWhile Text.isDigit) (fractionOf? behind) exponent?,
    ⟨?_, ?_, formed⟩, ?_⟩
  · exact List.forall_mem_append.mpr
      ⟨fun d mem => List.mem_takeWhile_imp mem, fun d => isDigit_of_mem_fractionOf?⟩
  · by_cases digit : Text.isDigit c = true
    · rw [List.takeWhile_cons_of_pos digit]
      exact List.cons_ne_nil _ _
    · obtain ⟨point, next⟩ :=
        Bool.and_eq_true_iff.mp ((Bool.or_eq_true_iff.mp start).resolve_left digit)
      have point : headIs (· == ('.' : CodePoint)) (c :: rest) = true := point
      rw [countWhile, List.takeWhile_cons_of_neg digit] at hbehind
      cases rest with
      | nil => cases next
      | cons d more =>
        have first : Text.isDigit d = true := next
        have fraction : fractionOf? behind = some (d :: more.takeWhile Text.isDigit) := by
          rw [← hbehind, List.length_nil, List.drop_zero, fractionOf?, if_pos point,
            List.drop_one, List.tail_cons, List.takeWhile_cons_of_pos first]
        rw [fraction, List.takeWhile_cons_of_neg digit]
        exact List.cons_ne_nil _ _
  · rw [hbehind, List.take_add, List.take_add, take_countWhile, hbehind, take_fractionLength,
      ← List.drop_drop, hbehind, hexponent]
    rfl

theorem exists_inBase {t : Text} {base n : Nat} (announced : radixOf? t = some base)
    (h : radixLength? base t = some n) : ∃ x : Numeral, x.IsFormed ∧ t.take n = x.spelling := by
  obtain ⟨value, read, rfl⟩ := Option.map_eq_some_iff.mp h
  match t, announced, read with
  | z :: letter :: more, announced, read =>
    obtain ⟨zero, announced⟩ := Option.ite_none_right_eq_some.mp announced
    obtain rfl : z = '0' := beq_iff_eq.mp zero
    refine ⟨.inBase letter (more.takeWhile Text.isAlphanumeric),
      ⟨base, announced, (Text.intOfRadix?_eq_some_iff.mp read).1⟩, ?_⟩
    show List.take (2 + countWhile Text.isAlphanumeric more) _ = _
    rw [Nat.add_comm, List.take_succ_cons, List.take_succ_cons, take_countWhile]
    rfl

/-- **What is cut off a text as a number is spelled by a numeral.** -/
theorem exists_numeral {c : CodePoint} {rest : Text} {n : Nat}
    (start : (Text.isDigit c || (c == '.' && headIs Text.isDigit rest)) = true)
    (h : numberLength? (c :: rest) = some n) :
    ∃ x : Numeral, x.IsFormed ∧ (c :: rest).take n = x.spelling := by
  rw [numberLength?_eq, numeralLength?_eq] at h
  obtain ⟨m, measured, unnamed⟩ := Option.bind_eq_some_iff.mp h
  obtain rfl : m = n := by
    split at unnamed
    · cases unnamed
    · exact Option.some.inj unnamed
  cases announced : radixOf? (c :: rest) with
  | some base =>
    rw [announced] at measured
    exact exists_inBase announced measured
  | none =>
    rw [announced] at measured
    obtain rfl := Option.some.inj measured
    exact exists_decimal start

end Scriptlet
