import Mathlib.Data.List.Basic
import Mathlib.Data.Nat.Digits.Defs
import Scriptlet.Proofs.Readback.Numeral

/-!
# Digits and what they are worth

A row of digits is worth what its digits add up to, each times a power of the base. Those who read
rows of digits add them up from the front, and they know digits of every script. What is no digit to
them is no matter here, but that a digit is not mistaken for something else is: for a blank, or for
one of the marks that stand among digits.

Sets of code points are given by bounds among which one looks by halving. That one finds neighbours
does not depend on the bounds being in order: what is below is only ever cut off above an entry that
has been looked at, and what is above likewise.
-/

namespace Scriptlet

namespace Text

/-! ## Looking among bounds -/

section Bounds

variable {c b : CodePoint}

/-- Halving ends **between two neighbours**, one at or below the code point and the other above. -/
theorem countBelowFrom_spec (bounds : Array CodePoint) {steps low n : Nat} (enough : n < 2 ^ steps)
    (below : ∀ b, 0 < low → bounds[low - 1]? = some b → b ≤ c)
    (above : ∀ b, bounds[low + n]? = some b → c < b) (within : low + n ≤ bounds.size) :
    countBelowFrom bounds c steps low n ≤ bounds.size
    ∧ (∀ b, 0 < countBelowFrom bounds c steps low n →
        bounds[countBelowFrom bounds c steps low n - 1]? = some b → b ≤ c)
    ∧ ∀ b, bounds[countBelowFrom bounds c steps low n]? = some b → c < b := by
  induction steps generalizing low n with
  | zero =>
    obtain rfl : n = 0 := by omega
    exact ⟨within, below, above⟩
  | succ steps ih =>
    rw [countBelowFrom]
    split
    · rename_i none
      subst none
      exact ⟨within, below, above⟩
    · rename_i some
      have inside : low + n / 2 < bounds.size := by omega
      have middle : bounds[low + n / 2]? = .some bounds[low + n / 2] := Array.getElem?_eq_getElem _
      rw [Nat.pow_succ] at enough
      dsimp only
      rw [middle]
      dsimp only
      split
      · rename_i atMost
        refine ih (by omega) (fun b _ found => ?_) ?_ (by omega)
        · rw [Nat.add_sub_cancel, middle] at found
          exact Option.some.inj found ▸ atMost
        · rwa [show low + n / 2 + 1 + (n - n / 2 - 1) = low + n by omega]
      · rename_i more
        refine ih (by omega) below (fun b found => ?_) (by omega)
        rw [middle] at found
        exact Option.some.inj found ▸ Nat.lt_of_not_le more

/-- What lies in one of the ranges lies **between the bounds of one**. -/
theorem Ranges.exists_of_contains (ranges : Ranges) (few : ranges.bounds.size < 2 ^ 21)
    (even : ranges.bounds.size % 2 = 0) (h : ranges.contains c = true) :
    ∃ i < ranges.bounds.size / 2, ∃ opens closes, ranges.bounds[2 * i]? = some opens
      ∧ ranges.bounds[2 * i + 1]? = some closes ∧ opens ≤ c ∧ c < closes := by
  have last : ranges.bounds[0 + ranges.bounds.size]? = none := by
    rw [Nat.zero_add, Array.getElem?_size]
  obtain ⟨within, below, above⟩ := countBelowFrom_spec ranges.bounds (c := c) few
    (fun _ start => absurd start (Nat.lt_irrefl 0)) (fun b found => nomatch last.symm.trans found)
    (Nat.le_of_eq (Nat.zero_add _))
  have odd := beq_iff_eq.mp h
  rw [countBelow] at odd
  generalize countBelowFrom ranges.bounds c 21 0 ranges.bounds.size = k at odd within below above
  obtain ⟨i, rfl⟩ : ∃ i, k = 2 * i + 1 := ⟨k / 2, by omega⟩
  have first : 2 * i < ranges.bounds.size := by omega
  have second : 2 * i + 1 < ranges.bounds.size := by omega
  have opens : ranges.bounds[2 * i]? = some ranges.bounds[2 * i] := Array.getElem?_eq_getElem _
  have closes : ranges.bounds[2 * i + 1]? = some ranges.bounds[2 * i + 1] :=
    Array.getElem?_eq_getElem _
  exact ⟨i, by omega, _, _, opens, closes, below _ (Nat.succ_pos _) opens, above _ closes⟩

end Bounds

/-! ## What a digit is not -/

/-- **No digit is blank.** -/
theorem isBlank_of_isDigit {c : CodePoint} (h : isDigit c = true) : isBlank c = false := by
  by_contra blank
  obtain ⟨i, hi, opens, closes, hopens, hcloses, atLeast, less⟩ :=
    blanks.exists_of_contains (by decide) (by decide) (Bool.not_eq_false _ ▸ blank)
  have apart : ∀ i < 10, ∀ opens ∈ blanks.bounds[2 * i]?, ∀ closes ∈ blanks.bounds[2 * i + 1]?,
      ∀ d < closes - opens, isDigit (opens + d) = false := by decide +kernel
  have no := apart i hi opens hopens closes hcloses (c - opens) (Nat.sub_lt_sub_right atLeast less)
  rw [Nat.add_sub_cancel' atLeast, h] at no
  cases no

/-- The **marks** that stand among the digits of numerals or in front of them, and the letter that
infinity starts with. -/
def numeralMarks : Text :=
  "+-.eExXoObBI"

/-- The marks are neither digits nor blank. -/
theorem apart_of_mem_numeralMarks :
    ∀ mark ∈ numeralMarks, isDigit mark = false ∧ isBlank mark = false := by
  decide

theorem isDecimal_of_mem_numeralMarks {c : CodePoint} (mark : c ∈ numeralMarks) :
    isDecimal c = false :=
  (Bool.or_eq_false_iff.mp (apart_of_mem_numeralMarks c mark).1).1

/-- **No digit is one of the marks.** -/
theorem not_mem_of_isDigit {c : CodePoint} {marks : Text} (h : isDigit c = true)
    (among : ∀ mark ∈ marks, mark ∈ numeralMarks) : c ∉ marks :=
  fun mem => absurd h (Bool.eq_false_iff.mp (apart_of_mem_numeralMarks c (among c mem)).1)

theorem isDigit_zero : isDigit '0' = true := by
  decide

/-! ## What digits are worth -/

/-- What a row of digits **is worth** in a base. -/
def worth (base : Nat) (t : Text) : Nat :=
  Nat.ofDigits base (t.reverse.map fun c => (digitValue? c).getD 0)

theorem worth_eq_foldl (base : Nat) (t : Text) :
    worth base t = t.foldl (fun n c => base * n + (digitValue? c).getD 0) 0 := by
  rw [worth, Nat.ofDigits_eq_foldr, List.foldr_map, List.foldr_reverse]
  exact List.foldl_ext _ _ _ fun n c _ => Nat.add_comm ..

/-- Beyond the letters, only decimal digits have values. -/
theorem digitValue?_of_le {c : CodePoint} (beyond : 0x7B ≤ c) :
    digitValue? c = decimalValue? c := by
  have noLetter : ¬ c ≤ 'z'.toNat ∧ ¬ c ≤ 'Z'.toNat :=
    ⟨Nat.not_le_of_lt beyond, Nat.not_le_of_lt (Nat.lt_of_lt_of_le (by decide) beyond)⟩
  rw [digitValue?, if_neg fun h => noLetter.1 h.2, if_neg fun h => noLetter.2 h.2]

/-- A decimal digit has its value in every base. -/
theorem digitValue?_of_isDecimal {c : CodePoint} (h : isDecimal c = true) :
    digitValue? c = decimalValue? c := by
  have letters : ∀ c < 0x7B, isDecimal c = true → digitValue? c = decimalValue? c := by
    decide +kernel
  rcases Nat.lt_or_ge c 0x7B with small | beyond
  · exact letters c small h
  · exact digitValue?_of_le beyond

/-- No digit of a base is blank either. -/
theorem isBlank_of_digitValue? {c : CodePoint} {d : Nat} (h : digitValue? c = some d) :
    isBlank c = false := by
  have letters : ∀ c < 0x7B, (digitValue? c).isSome = true → isBlank c = false := by decide +kernel
  rcases Nat.lt_or_ge c 0x7B with small | beyond
  · exact letters c small (by rw [h]; rfl)
  · refine isBlank_of_isDigit (Bool.or_eq_true_iff.mpr (.inl ?_))
    rw [isDecimal, ← digitValue?_of_le beyond, h]
    rfl

/-- **A row of decimal digits** is read as what it is worth. -/
theorem valueOfDecimals_eq {t : Text} (decimal : ∀ c ∈ t, isDecimal c = true) :
    valueOfDecimals t = worth 10 t := by
  rw [worth_eq_foldl, valueOfDecimals]
  refine List.foldl_ext _ _ _ fun n c mem => ?_
  obtain ⟨d, value⟩ := Option.isSome_iff_exists.mp (decimal c mem)
  rw [digitValue?_of_isDecimal (decimal c mem), value]
  rfl

/-- Whether a row of digits **fits** a base: there are some, and each is below it. -/
def Fits (base : Nat) (t : Text) : Prop :=
  t ≠ [] ∧ ∀ c ∈ t, ∃ d < base, digitValue? c = some d

/-- Adding up the digits of a row, from the front and with any start. -/
theorem foldlM_eq_some_iff (base : Nat) {next : Nat → CodePoint → Option Nat}
    (digit : ∀ n c d, digitValue? c = some d →
      next n c = if d < base then some (base * n + d) else none)
    (other : ∀ n c, digitValue? c = none → next n c = none) {t : Text} {start n : Nat} :
    t.foldlM next start = some n ↔ (∀ c ∈ t, ∃ d < base, digitValue? c = some d)
      ∧ n = t.foldl (fun n c => base * n + (digitValue? c).getD 0) start := by
  induction t generalizing start with
  | nil =>
    rw [List.foldlM_nil, List.foldl_nil]
    exact ⟨fun h => ⟨fun c mem => absurd mem List.not_mem_nil, (Option.some.inj h).symm⟩,
      fun h => congrArg some h.2.symm⟩
  | cons c t ih =>
    rw [List.foldlM_cons, List.foldl_cons, List.forall_mem_cons]
    cases value : digitValue? c with
    | none =>
      rw [other start c value]
      refine iff_of_false (Option.some_ne_none n).symm ?_
      rintro ⟨⟨⟨d, -, same⟩, -⟩, -⟩
      cases same
    | some d =>
      rw [digit start c d value]
      by_cases below : d < base
      · rw [if_pos below]
        refine ih.trans (and_congr_left fun _ => ?_)
        exact (and_iff_right ⟨d, below, rfl⟩).symm
      · rw [if_neg below]
        refine iff_of_false (Option.some_ne_none n).symm ?_
        rintro ⟨⟨⟨d', below', same⟩, -⟩, -⟩
        exact below (Option.some.inj same ▸ below')

/-- **A row of digits of a base** is read as what it is worth, and nothing else is read. -/
theorem intOfRadix?_eq_some_iff {base : Nat} {t : Text} {n : Int} :
    intOfRadix? base t = some n ↔ t.Fits base ∧ n = worth base t := by
  rw [intOfRadix?, Fits, worth_eq_foldl]
  by_cases empty : t = []
  · subst empty
    exact iff_of_false (Option.some_ne_none n).symm fun h => h.1.1 rfl
  · rw [List.isEmpty_eq_false_iff.mpr empty, if_neg Bool.false_ne_true, Option.map_eq_some_iff]
    refine (exists_congr fun m => and_congr_left fun _ => foldlM_eq_some_iff base ?_ ?_).trans ?_
    · exact fun n c d value => by rw [value]
    · exact fun n c none => by rw [none]
    · constructor
      · rintro ⟨m, ⟨fits, rfl⟩, rfl⟩
        exact ⟨⟨empty, fits⟩, rfl⟩
      · rintro ⟨⟨-, fits⟩, rfl⟩
        exact ⟨_, ⟨fits, rfl⟩, rfl⟩

end Text

end Scriptlet
